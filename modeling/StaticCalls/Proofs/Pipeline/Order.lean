import StaticCalls.Proofs.Pipeline.Accounting
import StaticCalls.Proofs.Scope.Standing

/-! The order of the documents of an index. A run fails or succeeds whatever the order is, and it
matters to the graph only which of several empty bodies of a symbol comes first (`run_of_perm`). -/
namespace StaticCalls
open scoped List

namespace Document
variable {d : Document} {policy : ReferencePolicy} {symbol : String}

theorem isSome_owned?_iff : ((d.partition policy).resolve.owned? symbol).isSome ↔
    symbol ∈ d.scopedSymbols policy := by
  rw [(d.sound_resolve policy).defined.isSome_owned?, Partition.contains_enclosed_iff, exists_hasBody_iff]

theorem ownsCalls_iff_owned? : d.OwnsCalls policy symbol ↔
    ∃ b, (d.partition policy).resolve.owned? symbol = some b ∧ b.isPopulated := by
  rw [← populates_resolve_iff, (d.sound_resolve policy).defined.populates_iff_owned?]

theorem OwnsCalls.mem_scopedSymbols (h : d.OwnsCalls policy symbol) :
    symbol ∈ d.scopedSymbols policy := by
  obtain ⟨b, hb, _⟩ := ownsCalls_iff_owned?.mp h
  rw [← isSome_owned?_iff, hb]
  rfl

end Document

namespace Index
variable {index index' : Index} {policy : ReferencePolicy} {symbol : String}

/-- The bodies of the symbol in the documents of the index. -/
def ownedCalls (index : Index) (policy : ReferencePolicy) (symbol : String) : List OwnedCalls :=
  index.documents.filterMap fun d => (d.partition policy).resolve.owned? symbol

/-- No symbol owns calls in two documents. -/
def Uncontested (index : Index) (policy : ReferencePolicy) : Prop :=
  index.documents.Pairwise fun d d' => ∀ symbol,
    ¬ (d.OwnsCalls policy symbol ∧ d'.OwnsCalls policy symbol)

theorem apart_iff_uncontested :
    DocumentScopes.Apart ((index.documents.map (·.partition policy)).map Partition.resolve) ↔
      index.Uncontested policy := by
  rw [DocumentScopes.Apart, List.pairwise_map, List.pairwise_map]
  simp only [Document.populates_resolve_iff, Uncontested]

theorem uncontested_iff : index.Uncontested policy ↔ ¬ ∃ symbol, index.Contests policy symbol := by
  rw [← apart_iff_uncontested, ScopeResolution.apart_iff_not_contests]

theorem ownedCalls_eq (index : Index) (policy : ReferencePolicy) (symbol : String) :
    index.ownedCalls policy symbol =
      ((index.documents.map (·.partition policy)).map Partition.resolve).filterMap
        fun d => d.owned? symbol := by
  rw [List.filterMap_map, List.filterMap_map]
  rfl

theorem uncontested_iff_of_perm (h : index.documents ~ index'.documents) :
    index.Uncontested policy ↔ index'.Uncontested policy := by
  refine h.pairwise_iff fun hne symbol hboth => ?_
  exact hne symbol hboth.symm

theorem length_populated_le_one (h : index.Uncontested policy) (symbol : String) :
    ((index.ownedCalls policy symbol).filter OwnedCalls.isPopulated).length ≤ 1 := by
  rw [ownedCalls_eq]
  exact (apart_iff_uncontested.mpr h).length_populated_le_one symbol

/-- Each symbol has a scoped definition in one document at most, or it owns calls in some
document. -/
def Determined (index : Index) (policy : ReferencePolicy) : Prop :=
  ∀ symbol, (index.documents.countP fun d => symbol ∈ d.scopedSymbols policy) ≤ 1 ∨
    ∃ d ∈ index.documents, d.OwnsCalls policy symbol

theorem standing_eq_of_perm (h : index.documents ~ index'.documents)
    (hfree : index.Uncontested policy) (hdetermined : index.Determined policy) (symbol : String) :
    OwnedCalls.standing (index.ownedCalls policy symbol) =
      OwnedCalls.standing (index'.ownedCalls policy symbol) := by
  refine OwnedCalls.standing_eq_of_perm (h.filterMap _) (length_populated_le_one hfree symbol) ?_
  rcases hdetermined symbol with hcount | ⟨d, hd, howns⟩
  · refine .inl ?_
    rw [ownedCalls, List.length_filterMap_eq_countP]
    refine Nat.le_trans (List.countP_mono_left fun d _ hd => ?_) hcount
    exact decide_eq_true (Document.isSome_owned?_iff.mp hd)
  · obtain ⟨b, hb, hpop⟩ := Document.ownsCalls_iff_owned?.mp howns
    exact .inr ⟨b, List.mem_filterMap.mpr ⟨d, hd, hb⟩, hpop⟩

theorem scopedSymbols_perm (h : index.documents ~ index'.documents) :
    index.scopedSymbols policy ~ index'.scopedSymbols policy :=
  h.flatMap_right _

theorem unscopedReferences_perm (h : index.documents ~ index'.documents) :
    index.unscopedReferences policy ~ index'.unscopedReferences policy :=
  (h.map _).flatMap_right _

theorem tracks_eq_of_perm (h : index.documents ~ index'.documents) :
    index.tracks policy = index'.tracks policy := by
  funext m
  rw [Bool.eq_iff_iff, tracks, tracks, List.contains_iff_mem, List.contains_iff_mem]
  exact (scopedSymbols_perm h).mem_iff

end Index

namespace ScopeResolution
variable {index index' : Index} {policy : ReferencePolicy} {r : ScopeResolution}

theorem sound_of_mem_partitions {d : DocumentScopes}
    (hd : d ∈ (index.extract policy).partitions.map Partition.resolve) : d.Sound := by
  have hmem : d ∈ (index.documents.map (·.partition policy)).map Partition.resolve := hd
  simp only [List.mem_map] at hmem
  obtain ⟨_, ⟨document, _, rfl⟩, rfl⟩ := hmem
  exact document.sound_resolve policy

theorem holds_ofPartitions (h : ofPartitions (index.extract policy).partitions = .ok r)
    (symbol : String) :
    r.Holds symbol (OwnedCalls.standing (index.ownedCalls policy symbol)) := by
  rw [Index.ownedCalls_eq]
  exact holds_merge (fun _ hd => (sound_of_mem_partitions hd).defined) h symbol

theorem exists_ofPartitions_iff :
    (∃ r, ofPartitions (index.extract policy).partitions = .ok r) ↔ index.Uncontested policy := by
  rw [Index.uncontested_iff]
  rcases ofPartitions_cases index policy with ⟨⟨r, hr, _⟩, hfree⟩ | ⟨⟨_, _, hfail⟩, hcontested⟩
  · exact ⟨fun _ => hfree, fun _ => ⟨r, hr⟩⟩
  · constructor
    · rintro ⟨r, hr⟩
      rw [hr] at hfail
      cases hfail
    · intro hfree
      exact absurd hcontested hfree

/-- Documents in another order are merged to the same scopes. -/
theorem ofPartitions_eq_of_perm (h : index.documents ~ index'.documents)
    (hdetermined : index.Determined policy)
    (hr : ofPartitions (index.extract policy).partitions = .ok r) :
    ofPartitions (index'.extract policy).partitions = .ok r := by
  have hfree := exists_ofPartitions_iff.mp ⟨r, hr⟩
  obtain ⟨r', hr'⟩ := exists_ofPartitions_iff.mpr ((Index.uncontested_iff_of_perm h).mp hfree)
  have hunscoped : r.unscoped = r'.unscoped := by
    rw [unscoped_ofPartitions hr, unscoped_ofPartitions hr']
    exact (Index.unscopedReferences_perm h).length_eq
  rw [hr', eq_of_holds (fun symbol => holds_ofPartitions hr symbol) (fun symbol => ?_) hunscoped]
  rw [Index.standing_eq_of_perm h hfree hdetermined]
  exact holds_ofPartitions hr' symbol

end ScopeResolution

namespace Pipeline
variable {policy : ReferencePolicy} {index index' : Index} {result result' : PipelineResult}

theorem exists_result_iff :
    (∃ result, (run policy index).result = .ok result) ↔ index.Uncontested policy := by
  rw [← ScopeResolution.exists_ofPartitions_iff]
  constructor
  · rintro ⟨result, h⟩
    obtain ⟨r, _, _, hstages, _⟩ := result_of_run h
    exact ⟨r, hstages.merged⟩
  · rintro ⟨r, hr⟩
    obtain ⟨g, f, hg, hf⟩ := (ScopeResolution.tracks_ofPartitions hr).exists_forest
      (index.extract policy).references
    exact ⟨_, Stages.run_eq ⟨hr, hg⟩ hf⟩

/-- The counters of the graph, without those of the extraction and the time. -/
def graphCounters (stats : PipelineStats) : PipelineStats :=
  { stats with extract := {}, elapsedMs := 0 }

theorem eq_of_perm (h : index.documents ~ index'.documents) (hdetermined : index.Determined policy)
    (hresult : (run policy index).result = .ok result)
    (hresult' : (run policy index').result = .ok result') :
    result'.forest = result.forest ∧ graphCounters result'.stats = graphCounters result.stats := by
  obtain ⟨r, g, f, hstages, hf, rfl⟩ := result_of_run hresult
  have hmerged := ScopeResolution.ofPartitions_eq_of_perm h hdetermined hstages.merged
  have hstages' : Stages policy index' r g := ⟨hmerged, hstages.built⟩
  have htracked : (r.edges index' policy).unscopedTrackedReferences =
      (r.edges index policy).unscopedTrackedReferences := by
    rw [ScopeResolution.unscopedTracked_edges hmerged,
      ScopeResolution.unscopedTracked_edges hstages.merged, Index.tracks_eq_of_perm h]
    exact ((Index.unscopedReferences_perm h).countP_eq _).symm
  rw [hstages'.run_eq hf] at hresult'
  cases hresult'
  refine ⟨rfl, ?_⟩
  simp only [graphCounters, statsOf, htracked]
  rfl

/-- With its documents in another order, an index is still accepted or refused, and where each
symbol has one body or owns calls the forest and the counters of the graph stay the same. -/
theorem run_of_perm (config : Config) (h : index.documents ~ index'.documents) :
    ((∃ result, (run config.analysis.referencePolicy index).result = .ok result) ↔
        ∃ result, (run config.analysis.referencePolicy index').result = .ok result) ∧
      (index.Determined config.analysis.referencePolicy → ∀ result result',
        (run config.analysis.referencePolicy index).result = .ok result →
        (run config.analysis.referencePolicy index').result = .ok result' →
          result'.forest = result.forest ∧
            graphCounters result'.stats = graphCounters result.stats) := by
  refine ⟨?_, fun hdetermined _ _ => eq_of_perm h hdetermined⟩
  rw [exists_result_iff, exists_result_iff]
  exact Index.uncontested_iff_of_perm h

/-- A function whose body is in the last document and a stub of it in the first one. -/
def stubbed : Index :=
  ⟨[Sample.document "pkg/stub.go" [.function Sample.callee 0 2],
    Sample.document "pkg/a.go" [.function Sample.caller 0 5, .call Sample.callee 2 1,
      .call Sample.libraryCall 3 1, .call Sample.callee 9 1],
    Sample.document "pkg/b.go" [.function Sample.callee 0 4, .call Sample.caller 1 1]]⟩

theorem scopedSymbols_stubbed : stubbed.documents.map (·.scopedSymbols .methods) =
    [[Sample.callee], [Sample.caller], [Sample.callee]] := by decide +kernel

theorem uncontested_stubbed : stubbed.Uncontested .methods := by
  have hstub : (Sample.document "pkg/stub.go" [.function Sample.callee 0 2] |>.partition
      .methods).references = [] := by decide +kernel
  have hsymbols := scopedSymbols_stubbed
  simp only [stubbed, List.map_cons, List.map_nil, List.cons.injEq, and_true] at hsymbols
  obtain ⟨_, ha, hb⟩ := hsymbols
  simp only [Index.Uncontested, stubbed, List.pairwise_cons, List.forall_mem_cons, List.not_mem_nil,
    false_implies, implies_true, and_true, List.Pairwise.nil]
  refine ⟨⟨fun symbol h => ?_, fun symbol h => ?_⟩, fun symbol h => ?_⟩
  · exact h.1.references_ne_nil hstub
  · exact h.1.references_ne_nil hstub
  · have hcaller := h.1.mem_scopedSymbols
    have hcallee := h.2.mem_scopedSymbols
    rw [ha, List.mem_singleton] at hcaller
    rw [hb, List.mem_singleton, hcaller] at hcallee
    exact absurd hcallee (by decide)

theorem determined_stubbed : stubbed.Determined .methods := by
  intro symbol
  by_cases hcallee : symbol = Sample.callee
  · have howner : ∃ d ∈ stubbed.documents,
        (d.partition .methods).resolve.enclosed.getD Sample.callee [] ≠ [] := by decide +kernel
    obtain ⟨d, hd, howns⟩ := howner
    exact .inr ⟨d, hd, hcallee ▸ Document.populates_resolve_iff.mp howns⟩
  · have hcount : stubbed.documents.countP (fun d => symbol ∈ d.scopedSymbols .methods) =
        (stubbed.documents.map (·.scopedSymbols .methods)).countP (symbol ∈ ·) := by
      rw [List.countP_map]
      rfl
    rw [hcount, scopedSymbols_stubbed]
    refine .inl ?_
    by_cases hcaller : symbol = Sample.caller
    · rw [hcaller]
      decide +kernel
    · simp [hcallee, hcaller]

theorem stubbed_run_of_perm : stubbed.documents ~ stubbed.documents.reverse ∧
    stubbed.Determined .methods ∧ ∃ result result',
      (run ({} : Config).analysis.referencePolicy stubbed).result = .ok result ∧
      (run ({} : Config).analysis.referencePolicy ⟨stubbed.documents.reverse⟩).result =
        .ok result' ∧
      result'.forest = result.forest ∧
        graphCounters result'.stats = graphCounters result.stats := by
  have hperm : stubbed.documents ~ (⟨stubbed.documents.reverse⟩ : Index).documents :=
    (List.reverse_perm _).symm
  obtain ⟨hiff, heq⟩ := run_of_perm {} hperm
  obtain ⟨result, hresult⟩ := exists_result_iff.mpr uncontested_stubbed
  obtain ⟨result', hresult'⟩ := hiff.mp ⟨result, hresult⟩
  exact ⟨hperm, determined_stubbed, result, result', hresult, hresult',
    heq determined_stubbed result result' hresult hresult'⟩

end Pipeline
end StaticCalls
