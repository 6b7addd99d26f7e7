import StaticCalls.Proofs.CallGraph.Union
import StaticCalls.Proofs.Pipeline.Order

/-! Two indexes in one. Where no symbol that one of them defines occurs in the other, the run of
both together comes to the trees and the counters of the separate runs (`run_of_unrelated`). -/
namespace StaticCalls
open scoped List

namespace Index
variable {a b part whole : Index} {policy : ReferencePolicy} {symbol : String}

instance : Append Index := ⟨fun a b => ⟨a.documents ++ b.documents⟩⟩

theorem documents_append (a b : Index) : (a ++ b).documents = a.documents ++ b.documents := rfl

def occurrences (index : Index) : List Occurrence := index.documents.flatMap Document.occurrences

/-- No symbol with a scoped definition in `a` occurs in `b`. -/
def DefinesNothingIn (a b : Index) : Prop :=
  ∀ o ∈ a.occurrences, o.isScopedDefinition → ∀ o' ∈ b.occurrences, o'.symbol ≠ o.symbol

instance : Decidable (a.DefinesNothingIn b) := by
  unfold DefinesNothingIn
  infer_instance

/-- No symbol with a scoped definition in one of the indexes occurs in the other. -/
structure Unrelated (a b : Index) : Prop where
  left : a.DefinesNothingIn b
  right : b.DefinesNothingIn a

theorem mem_occurrences_of_scoped {index : Index} (h : symbol ∈ index.scopedSymbols policy) :
    ∃ o ∈ index.occurrences, o.isScopedDefinition ∧ o.symbol = symbol := by
  obtain ⟨d, hd, hsymbol⟩ := List.mem_flatMap.mp h
  obtain ⟨m, hm, rfl⟩ := List.mem_map.mp hsymbol
  rw [Document.select_classified, List.mem_filter, Verdict.isDefinition_ofOccurrence_iff] at hm
  obtain ⟨hmention, _, hscoped⟩ := hm
  obtain ⟨o, ho, rfl⟩ := List.mem_map.mp hmention
  exact ⟨o, List.mem_flatMap.mpr ⟨d, hd, ho⟩, hscoped, rfl⟩

theorem mem_occurrences_of_candidate {index : Index} {m : Mention}
    (h : m ∈ index.candidates policy) : m.occurrence ∈ index.occurrences := by
  obtain ⟨p, hp, hm⟩ := List.mem_flatMap.mp h
  obtain ⟨d, hd, rfl⟩ := List.mem_map.mp hp
  obtain ⟨c, hc, rfl⟩ := List.mem_map.mp hm
  obtain ⟨m, hmention, rfl⟩ := List.mem_map.mp (List.mem_of_mem_filter hc)
  obtain ⟨o, ho, rfl⟩ := List.mem_map.mp hmention
  exact List.mem_flatMap.mpr ⟨d, hd, ho⟩

theorem DefinesNothingIn.not_mem_scopedSymbols (h : a.DefinesNothingIn b)
    {o : Occurrence} (ho : o ∈ b.occurrences) : o.symbol ∉ a.scopedSymbols policy := by
  intro hin
  obtain ⟨o', ho', hscoped, heq⟩ := mem_occurrences_of_scoped hin
  exact h o' ho' hscoped o ho heq.symm

theorem DefinesNothingIn.disjoint (h : a.DefinesNothingIn b)
    (hsymbol : symbol ∈ b.scopedSymbols policy) : symbol ∉ a.scopedSymbols policy := by
  obtain ⟨o, ho, _, rfl⟩ := mem_occurrences_of_scoped hsymbol
  exact h.not_mem_scopedSymbols ho

theorem scopedSymbols_append (a b : Index) (policy : ReferencePolicy) :
    (a ++ b).scopedSymbols policy = a.scopedSymbols policy ++ b.scopedSymbols policy :=
  List.flatMap_append

theorem ownedCalls_append (a b : Index) (policy : ReferencePolicy) (symbol : String) :
    (a ++ b).ownedCalls policy symbol = a.ownedCalls policy symbol ++ b.ownedCalls policy symbol :=
  List.filterMap_append

theorem partitions_append (a b : Index) (policy : ReferencePolicy) :
    ((a ++ b).extract policy).partitions =
      (a.extract policy).partitions ++ (b.extract policy).partitions :=
  List.map_append

theorem recordedReferences_append (a b : Index) (policy : ReferencePolicy) :
    (a ++ b).recordedReferences policy =
      a.recordedReferences policy ++ b.recordedReferences policy := by
  rw [recordedReferences, partitions_append, List.flatMap_append]
  rfl

theorem unscopedReferences_append (a b : Index) (policy : ReferencePolicy) :
    (a ++ b).unscopedReferences policy =
      a.unscopedReferences policy ++ b.unscopedReferences policy := by
  rw [unscopedReferences, partitions_append, List.flatMap_append]
  rfl

theorem ownedCalls_eq_nil {index : Index} (h : symbol ∉ index.scopedSymbols policy) :
    index.ownedCalls policy symbol = [] := by
  rw [ownedCalls, List.filterMap_eq_nil_iff]
  intro d hd
  rw [← Option.not_isSome_iff_eq_none, Document.isSome_owned?_iff]
  exact fun hsymbol => h (List.mem_flatMap.mpr ⟨d, hd, hsymbol⟩)

/-- The rest of the index adds nothing to the bodies of this part, and it defines none of the
symbols that the part calls. -/
structure PartOf (policy : ReferencePolicy) (part whole : Index) : Prop where
  bodies : ∀ symbol ∈ part.scopedSymbols policy,
    whole.ownedCalls policy symbol = part.ownedCalls policy symbol
  tracks : ∀ m ∈ part.candidates policy, whole.tracks policy m = part.tracks policy m

theorem tracks_append (a b : Index) (policy : ReferencePolicy) (m : Mention) :
    (a ++ b).tracks policy m = (a.tracks policy m || b.tracks policy m) := by
  rw [tracks, scopedSymbols_append, List.contains_append]
  rfl

theorem tracks_eq_false {index : Index} {m : Mention}
    (h : m.symbol ∉ index.scopedSymbols policy) : index.tracks policy m = false := by
  rw [tracks, Bool.eq_false_iff, Ne, List.contains_iff_mem]
  exact h

theorem Unrelated.partOf_left (h : a.Unrelated b) : PartOf policy a (a ++ b) where
  bodies symbol hsymbol := by
    rw [ownedCalls_append, ownedCalls_eq_nil (h.right.disjoint hsymbol), List.append_nil]
  tracks m hm := by
    rw [tracks_append, tracks_eq_false
      (h.right.not_mem_scopedSymbols (mem_occurrences_of_candidate hm)), Bool.or_false]

theorem Unrelated.partOf_right (h : a.Unrelated b) : PartOf policy b (a ++ b) where
  bodies symbol hsymbol := by
    rw [ownedCalls_append, ownedCalls_eq_nil (h.left.disjoint hsymbol), List.nil_append]
  tracks m hm := by
    rw [tracks_append, tracks_eq_false
      (h.left.not_mem_scopedSymbols (mem_occurrences_of_candidate hm)), Bool.false_or]

theorem Unrelated.uncontested_append (h : a.Unrelated b) :
    (a ++ b).Uncontested policy ↔ a.Uncontested policy ∧ b.Uncontested policy := by
  rw [Uncontested, documents_append, List.pairwise_append, ← and_assoc]
  refine and_iff_left_of_imp ?_
  rintro - d hd d' hd' symbol ⟨howns, howns'⟩
  have hin : symbol ∈ a.scopedSymbols policy :=
    List.mem_flatMap.mpr ⟨d, hd, howns.mem_scopedSymbols⟩
  have hin' : symbol ∈ b.scopedSymbols policy :=
    List.mem_flatMap.mpr ⟨d', hd', howns'.mem_scopedSymbols⟩
  exact h.left.disjoint hin' hin

namespace PartOf

theorem countP_eq (h : PartOf policy part whole) (p : Bool → Bool) {l : List Mention}
    (hl : ∀ m ∈ l, m ∈ part.candidates policy) :
    l.countP (fun m => p (whole.tracks policy m)) =
      l.countP fun m => p (part.tracks policy m) :=
  List.countP_congr fun m hm => by rw [h.tracks m (hl m hm)]

theorem countP_recorded (h : PartOf policy part whole) (p : Bool → Bool) :
    (part.recordedReferences policy).countP (fun m => p (whole.tracks policy m)) =
      (part.recordedReferences policy).countP fun m => p (part.tracks policy m) :=
  h.countP_eq p fun _ hm => (part.candidates_perm policy).mem_iff.mpr (List.mem_append_left _ hm)

theorem countP_unscoped (h : PartOf policy part whole) :
    (part.unscopedReferences policy).countP (whole.tracks policy) =
      (part.unscopedReferences policy).countP (part.tracks policy) :=
  h.countP_eq id fun _ hm => (part.candidates_perm policy).mem_iff.mpr (List.mem_append_right _ hm)

end PartOf
end Index

namespace Pipeline
variable {policy : ReferencePolicy} {a b part whole : Index} {r r' : ScopeResolution}
  {g g' g₁ g₂ : CallGraph} {symbol : String}

theorem Stages.isBuilt_iff (h : Stages policy part r g) :
    g.isBuilt symbol ↔ symbol ∈ part.scopedSymbols policy := by
  have hkeys : g.symbols = r.enclosed.keys :=
    (CallTable.symbols_of_build h.keyed h.built).trans (StringMap.keys_map _ _)
  rw [← CallGraph.mem_symbols_iff, hkeys, StringMap.mem_keys_iff,
    ScopeResolution.contains_enclosed_iff h.merged]

theorem Stages.closed (h : Stages policy part r g) : g.Closed :=
  CallGraph.closed_of_build h.keyed h.built fun _ he _ hm =>
    CallEdges.contains_target r.enclosed (part.extract policy).references he hm

theorem mem_candidates_of_enclosed (h : Stages policy part r g) {references : List Mention}
    (hreferences : r.enclosed.get? symbol = some references) {m : Mention} (hm : m ∈ references) :
    m ∈ part.candidates policy := by
  have hrecorded : m ∈ r.recorded :=
    List.mem_flatten.mpr ⟨references, StringMap.mem_values_of_get? hreferences, hm⟩
  have hmem := (ScopeResolution.recorded_perm_of_ofPartitions h.merged).mem_iff.mp hrecorded
  exact (part.candidates_perm policy).mem_iff.mpr (List.mem_append_left _ hmem)

/-- The nodes of a part are what they are in the whole. -/
theorem node?_eq_of_partOf (hpart : Index.PartOf policy part whole) (h : Stages policy part r g)
    (h' : Stages policy whole r' g') (hsymbol : g.isBuilt symbol) :
    g'.node? symbol = g.node? symbol := by
  have hbodies := hpart.bodies symbol (h.isBuilt_iff.mp hsymbol)
  have hholds := ScopeResolution.holds_ofPartitions h.merged symbol
  have hholds' := ScopeResolution.holds_ofPartitions h'.merged symbol
  rw [hbodies] at hholds'
  have hdefinition : r'.definitions.get? symbol = r.definitions.get? symbol :=
    hholds'.definition.trans hholds.definition.symm
  have henclosed : r'.enclosed.get? symbol = r.enclosed.get? symbol :=
    hholds'.enclosed.trans hholds.enclosed.symm
  have hcalls : (r'.callTable (whole.extract policy).references).calls.get? symbol =
      (r.callTable (part.extract policy).references).calls.get? symbol := by
    simp only [ScopeResolution.callTable, CallEdges.ofReferences, StringMap.get?_map, henclosed,
      ScopeResolution.contains_symbol_eq h.merged, ScopeResolution.contains_symbol_eq h'.merged]
    refine Option.map_congr fun references hreferences => ?_
    exact List.filter_congr fun m hm =>
      hpart.tracks m (mem_candidates_of_enclosed h hreferences hm)
  rw [CallTable.node?_of_build h'.keyed h'.built, CallTable.node?_of_build h.keyed h.built,
    CallTable.node?, CallTable.node?, hcalls]
  simp only [ScopeResolution.callTable, hdefinition]

theorem joins_of_unrelated (h : a.Unrelated b) {r₁ r₂ : ScopeResolution}
    (hwhole : Stages policy (a ++ b) r g) (ha : Stages policy a r₁ g₁)
    (hb : Stages policy b r₂ g₂) : g.Joins g₁ g₂ where
  left _ := node?_eq_of_partOf h.partOf_left ha hwhole
  right _ := node?_eq_of_partOf h.partOf_right hb hwhole
  covered symbol hsymbol := by
    rw [hwhole.isBuilt_iff, Index.scopedSymbols_append, List.mem_append] at hsymbol
    rwa [ha.isBuilt_iff, hb.isBuilt_iff]
  apart symbol h₁ h₂ := h.left.disjoint (hb.isBuilt_iff.mp h₂) (ha.isBuilt_iff.mp h₁)
  closed₁ := ha.closed
  closed₂ := hb.closed

/-- The result has the trees of two others, in the order of their roots, and accounts for both. -/
structure Unites (result : PipelineResult) (result₁ result₂ : PipelineResult) : Prop where
  trees : result.forest.roots ~ result₁.forest.roots ++ result₂.forest.roots
  ranked : result.forest.rankedRoots.Pairwise RankedRoot.Precedes
  nodes : result.stats.nodes = result₁.stats.nodes + result₂.stats.nodes
  edges : result.stats.edges = result₁.stats.edges + result₂.stats.edges
  dropped : result.stats.droppedReferences =
    result₁.stats.droppedReferences + result₂.stats.droppedReferences
  unscoped : result.stats.unscopedReferences =
    result₁.stats.unscopedReferences + result₂.stats.unscopedReferences
  unscopedTracked : result.stats.unscopedTrackedReferences =
    result₁.stats.unscopedTrackedReferences + result₂.stats.unscopedTrackedReferences
  roots : result.stats.roots = result₁.stats.roots + result₂.stats.roots
  maxDepth : result.stats.maxDepth = max result₁.stats.maxDepth result₂.stats.maxDepth

theorem foldl_max_append (l l' : List Nat) :
    (l ++ l').foldl max 0 = max (l.foldl max 0) (l'.foldl max 0) := by
  have hassoc : l'.foldl max (max (l.foldl max 0) 0) = max (l.foldl max 0) (l'.foldl max 0) :=
    List.foldl_assoc
  rwa [Nat.max_zero, ← List.foldl_append] at hassoc

theorem unites_of_unrelated (h : a.Unrelated b) {result result₁ result₂ : PipelineResult}
    (hresult : (run policy (a ++ b)).result = .ok result)
    (hresult₁ : (run policy a).result = .ok result₁)
    (hresult₂ : (run policy b).result = .ok result₂) : Unites result result₁ result₂ := by
  obtain ⟨r, g, f, hstages, hf, rfl⟩ := result_of_run hresult
  obtain ⟨r₁, g₁, f₁, hstages₁, hf₁, rfl⟩ := result_of_run hresult₁
  obtain ⟨r₂, g₂, f₂, hstages₂, hf₂, rfl⟩ := result_of_run hresult₂
  have hjoins := joins_of_unrelated h hstages hstages₁ hstages₂
  have htrees := hjoins.roots_of_forest (CallTable.indexed_of_build hstages.built)
    (CallTable.indexed_of_build hstages₁.built) (CallTable.indexed_of_build hstages₂.built)
    hf hf₁ hf₂
  have haccounts := hstages.accounts f
  have haccounts₁ := hstages₁.accounts f₁
  have haccounts₂ := hstages₂.accounts f₂
  exact {
    trees := htrees
    ranked := by
      rw [CallGraph.rankedRoots_of_forest (CallGraph.keyed_of_build hstages.keyed hstages.built) hf]
      exact g.rankedRoots_pairwise
    nodes := hjoins.nodeCount_eq
    edges := by
      rw [haccounts.edges, haccounts₁.edges, haccounts₂.edges, Index.recordedReferences_append,
        List.countP_append]
      exact congrArg₂ (· + ·) (h.partOf_left.countP_recorded id) (h.partOf_right.countP_recorded id)
    dropped := by
      rw [haccounts.dropped, haccounts₁.dropped, haccounts₂.dropped,
        Index.recordedReferences_append, List.countP_append, h.partOf_left.countP_recorded not,
        h.partOf_right.countP_recorded not]
    unscoped := by
      rw [haccounts.unscoped, haccounts₁.unscoped, haccounts₂.unscoped,
        Index.unscopedReferences_append, List.length_append]
    unscopedTracked := by
      rw [haccounts.unscopedTracked, haccounts₁.unscopedTracked, haccounts₂.unscopedTracked,
        Index.unscopedReferences_append, List.countP_append, h.partOf_left.countP_unscoped,
        h.partOf_right.countP_unscoped]
    roots := htrees.length_eq.trans List.length_append
    maxDepth := by
      show (f.roots.filterMap CallTree.depth).foldl max 0 = _
      rw [(htrees.filterMap CallTree.depth).foldl_eq, List.filterMap_append, foldl_max_append]
      rfl }

/-- Indexes of which neither mentions what the other defines do not disturb each other: together
they are accepted if both are, and then the run unites their results. -/
theorem run_of_unrelated (config : Config) (h : a.Unrelated b) :
    ((∃ result, (run config.analysis.referencePolicy (a ++ b)).result = .ok result) ↔
      (∃ result, (run config.analysis.referencePolicy a).result = .ok result) ∧
        ∃ result, (run config.analysis.referencePolicy b).result = .ok result) ∧
    ∀ result result₁ result₂,
      (run config.analysis.referencePolicy (a ++ b)).result = .ok result →
      (run config.analysis.referencePolicy a).result = .ok result₁ →
      (run config.analysis.referencePolicy b).result = .ok result₂ →
        Unites result result₁ result₂ := by
  refine ⟨?_, fun _ _ _ => unites_of_unrelated h⟩
  rw [exists_result_iff, exists_result_iff, exists_result_iff]
  exact h.uncontested_append

/-- A function with a helper, and calls of a library. -/
def reader : Index :=
  ⟨[Sample.document "main.go" [.function Sample.caller 0 5, .call Sample.callee 2 1,
    .call Sample.libraryCall 3 1, .function Sample.callee 7 9, .call Sample.libraryCall 11 1]]⟩

/-- Functions in a circle, in a document of the same path, with calls at the same places. -/
def server : Index :=
  let serve := Sample.goFunction "net" "serve"
  let ping := Sample.goFunction "net" "ping"
  ⟨[Sample.document "main.go" [.function serve 0 5, .call ping 2 1, .call Sample.libraryCall 3 1,
    .function ping 7 9, .call ping 8 1, .call serve 11 1]]⟩

theorem reader_server_run_of_unrelated : reader.Unrelated server ∧ ∃ result result₁ result₂,
    (run ({} : Config).analysis.referencePolicy (reader ++ server)).result = .ok result ∧
    (run ({} : Config).analysis.referencePolicy reader).result = .ok result₁ ∧
    (run ({} : Config).analysis.referencePolicy server).result = .ok result₂ ∧
    Unites result result₁ result₂ := by
  have hunrelated : reader.Unrelated server := ⟨by decide, by decide⟩
  obtain ⟨hiff, hunites⟩ := run_of_unrelated {} hunrelated
  have hsingle : ∀ d ∈ ([] : List Document), (d.partition .methods).references = [] := by simp
  obtain ⟨result₁, h₁⟩ : ∃ result, (run .methods reader).result = .ok result :=
    exists_result_of_tail hsingle
  obtain ⟨result₂, h₂⟩ : ∃ result, (run .methods server).result = .ok result :=
    exists_result_of_tail hsingle
  obtain ⟨result, hresult⟩ := hiff.mpr ⟨⟨result₁, h₁⟩, result₂, h₂⟩
  exact ⟨hunrelated, result, result₁, result₂, hresult, h₁, h₂,
    hunites result result₁ result₂ hresult h₁ h₂⟩

end Pipeline
end StaticCalls
