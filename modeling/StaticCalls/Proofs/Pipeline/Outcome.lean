import StaticCalls.Config
import StaticCalls.Pipeline
import StaticCalls.Proofs.CallTree.Sites
import StaticCalls.Proofs.Extraction.Definitions
import StaticCalls.Proofs.Scope.Merge

/-! When a run fails. Every key of one stage is known to the next: bodies belong to registered
definitions, calls lead to tracked symbols, and these become nodes. This leaves the merge of the
scopes as the only stage that can refuse an index. -/
namespace StaticCalls

namespace Document
variable {d : Document} {policy : ReferencePolicy} {symbol : String}

/-- The last scoped definition of the symbol in the document is registered, and candidate
references are recorded in its body. -/
def OwnsCalls (d : Document) (policy : ReferencePolicy) (symbol : String) : Prop :=
  ∃ o, d.lastDefinition? symbol = some o ∧
    (d.partition policy).definitions.get? symbol = some ⟨d.relativePath, o⟩ ∧
    (d.partition policy).resolve.enclosed.getD symbol [] ≠ []

theorem sound_resolve (d : Document) (policy : ReferencePolicy) :
    (d.partition policy).resolve.Sound := by
  constructor
  · intro symbol m hm
    exact (mem_definitions hm).1
  · intro symbol h
    obtain ⟨references, hget⟩ := Option.isSome_iff_exists.mp h
    rw [Partition.get?_enclosed, Option.map_eq_some_iff] at hget
    obtain ⟨_, hbody, _⟩ := hget
    obtain ⟨m, hm, _⟩ := Option.bind_eq_some_iff.mp hbody
    exact Option.isSome_iff_exists.mpr ⟨m, hm⟩

theorem populates_resolve_iff :
    (d.partition policy).resolve.Populates symbol ↔ d.OwnsCalls policy symbol := by
  constructor
  · intro h
    have hin : (d.partition policy).resolve.enclosed.contains symbol := by
      apply Decidable.byContradiction
      intro hnot
      rw [StringMap.contains, Option.not_isSome_iff_eq_none] at hnot
      simp [DocumentScopes.Populates, StringMap.getD, hnot] at h
    obtain ⟨m, hm⟩ := Option.isSome_iff_exists.mp ((sound_resolve d policy).defined symbol hin)
    have hfound : (d.partition policy).definitions.get? symbol = some m := hm
    rw [get?_definitions (mem_definitions hm).2.2.1, Option.map_eq_some_iff] at hfound
    obtain ⟨o, ho, rfl⟩ := hfound
    exact ⟨o, ho, hm, h⟩
  · rintro ⟨_, _, _, h⟩
    exact h

end Document

/-- Two documents at different places of the index own calls of the symbol. -/
def Index.Contests (index : Index) (policy : ReferencePolicy) (symbol : String) : Prop :=
  ∃ (i j : Nat) (d d' : Document), i ≠ j ∧ index.documents[i]? = some d ∧
    index.documents[j]? = some d' ∧ d.OwnsCalls policy symbol ∧ d'.OwnsCalls policy symbol

namespace ScopeResolution
variable {index : Index} {policy : ReferencePolicy} {r : ScopeResolution}

theorem apart_iff_not_contests :
    DocumentScopes.Apart ((index.documents.map (·.partition policy)).map Partition.resolve) ↔
      ¬ ∃ symbol, index.Contests policy symbol := by
  rw [DocumentScopes.Apart, List.pairwise_map, List.pairwise_map, List.pairwise_iff_getElem]
  simp only [Document.populates_resolve_iff]
  constructor
  · rintro h ⟨symbol, i, j, d, d', hne, hi, hj, hd, hd'⟩
    obtain ⟨hi', rfl⟩ := List.getElem?_eq_some_iff.mp hi
    obtain ⟨hj', rfl⟩ := List.getElem?_eq_some_iff.mp hj
    rcases Nat.lt_or_gt_of_ne hne with hlt | hgt
    · exact h i j hi' hj' hlt symbol ⟨hd, hd'⟩
    · exact h j i hj' hi' hgt symbol ⟨hd', hd⟩
  · intro h i j hi hj hlt symbol hboth
    exact h ⟨symbol, i, j, _, _, Nat.ne_of_lt hlt, List.getElem?_eq_getElem hi,
      List.getElem?_eq_getElem hj, hboth⟩

/-- The scopes of an index are merged unless a symbol is contested. -/
theorem ofPartitions_cases (index : Index) (policy : ReferencePolicy) :
    (∃ r, ofPartitions (index.extract policy).partitions = .ok r ∧ r.Tracks) ∧
        ¬ (∃ symbol, index.Contests policy symbol) ∨
      (∃ symbol document, ofPartitions (index.extract policy).partitions =
          .error (.duplicateDefinition symbol document)) ∧
        ∃ symbol, index.Contests policy symbol := by
  have hcases := merge_cases ((index.documents.map (·.partition policy)).map Partition.resolve)
  rw [apart_iff_not_contests, Classical.not_not] at hcases
  rcases hcases with ⟨⟨r, hr⟩, hfree⟩ | hfail
  · refine .inl ⟨⟨r, hr, tracks_merge ?_ hr⟩, hfree⟩
    intro s hs
    simp only [List.mem_map] at hs
    obtain ⟨_, ⟨d, _, rfl⟩, rfl⟩ := hs
    exact d.sound_resolve policy
  · exact .inr hfail

end ScopeResolution

namespace CallEdges
variable {enclosed references : SymbolMentions}

theorem contains_calls (symbol : String) :
    (ofReferences enclosed references).calls.contains symbol = enclosed.contains symbol := by
  simp only [ofReferences, StringMap.contains, StringMap.get?_map, Option.isSome_map]

/-- The target of each call has calls of its own, if only an empty list of them. -/
theorem contains_target (enclosed references : SymbolMentions) {e : String × List Mention}
    (he : e ∈ (ofReferences enclosed references).calls.entries) {m : Mention} (hm : m ∈ e.2) :
    (ofReferences enclosed references).calls.contains m.symbol := by
  have hget := StringMap.get?_eq_some_iff.mpr he
  simp only [ofReferences, StringMap.get?_map, Option.map_eq_some_iff] at hget
  obtain ⟨inside, _, hfilter⟩ := hget
  rw [← hfilter, List.mem_filter] at hm
  rw [contains_calls]
  exact hm.2

end CallEdges

namespace CallGraph
variable {g : CallGraph}

/-- A graph that is keyed and closed has a tree for each of its roots. -/
theorem exists_rootTree (hkeyed : g.Keyed) (hclosed : g.Closed) {root : RankedRoot}
    (hroot : root ∈ g.rankedRoots) : ∃ t, g.rootTree root = .ok t := by
  simp only [rankedRoots, List.mem_mergeSort, List.mem_map] at hroot
  obtain ⟨symbol, hsymbol, rfl⟩ := hroot
  have hbuilt : g.isBuilt symbol := StringMap.mem_keys_iff.mp (List.mem_of_mem_filter hsymbol)
  obtain ⟨t, ht, _⟩ := exists_tree_showsAll hkeyed hclosed hbuilt
  refine ⟨{ t with depth := some (g.depth symbol) }, ?_⟩
  simp only [rootTree, ht]
  rfl

theorem exists_forest (hkeyed : g.Keyed) (hclosed : g.Closed) : ∃ f, g.forest = .ok f := by
  obtain ⟨trees, htrees⟩ := exists_mapM_ok fun _ hroot => exists_rootTree hkeyed hclosed hroot
  refine ⟨⟨trees⟩, ?_⟩
  rw [forest, htrees]
  rfl

end CallGraph

/-- What the merged scopes and the filtered references hand on to the graph. -/
def ScopeResolution.callTable (r : ScopeResolution) (references : SymbolMentions) : CallTable :=
  ⟨r.definitions, (CallEdges.ofReferences r.enclosed references).calls⟩

/-- Once the scopes are merged nothing can fail any more. -/
theorem ScopeResolution.Tracks.exists_forest {r : ScopeResolution} (hr : r.Tracks)
    (references : SymbolMentions) :
    ∃ g f, (r.callTable references).build = .ok g ∧ g.forest = .ok f := by
  have hkeyed : (r.callTable references).Keyed := hr.keyed
  have hregistered : (r.callTable references).Registered := by
    intro symbol hs
    rw [callTable, CallEdges.contains_calls] at hs
    exact hr.defined symbol hs
  obtain ⟨g, hg⟩ := CallTable.build_of_registered hkeyed hregistered
  have hclosed : g.Closed :=
    CallGraph.closed_of_build hkeyed hg fun _ he _ hm =>
      CallEdges.contains_target r.enclosed references he hm
  obtain ⟨f, hf⟩ := CallGraph.exists_forest (CallGraph.keyed_of_build hkeyed hg) hclosed
  exact ⟨g, f, hg, hf⟩

/-- A run succeeds or reports a duplicate definition, and it does the latter exactly when two
documents of the index own calls of one symbol. -/
theorem Pipeline.run_fails_iff_contested (config : Config) (index : Index) :
    ((∃ result, (run config.analysis.referencePolicy index).result = .ok result) ∨
      ∃ symbol document, (run config.analysis.referencePolicy index).result =
        .error (.duplicateDefinition symbol document)) ∧
    ((∃ e, (run config.analysis.referencePolicy index).result = .error e) ↔
      ∃ symbol, index.Contests config.analysis.referencePolicy symbol) := by
  generalize config.analysis.referencePolicy = policy
  rcases ScopeResolution.ofPartitions_cases index policy with
    ⟨⟨r, hmerge, hr⟩, hfree⟩ | ⟨⟨symbol, document, hmerge⟩, hcontested⟩
  · obtain ⟨g, f, hg, hf⟩ := hr.exists_forest (index.extract policy).references
    rw [ScopeResolution.callTable] at hg
    have hok : ∃ result, (run policy index).result = .ok result := by
      simp only [run, hmerge, hg, hf]
      exact ⟨_, rfl⟩
    refine ⟨.inl hok, ?_⟩
    constructor
    · rintro ⟨e, he⟩
      obtain ⟨result, hresult⟩ := hok
      rw [he] at hresult
      cases hresult
    · intro h
      exact absurd h hfree
  · have hfail : (run policy index).result = .error (.duplicateDefinition symbol document) := by
      simp only [run, hmerge]
    exact ⟨.inr ⟨symbol, document, hfail⟩, fun _ => hcontested, fun _ => ⟨_, hfail⟩⟩

end StaticCalls
