import StaticCalls.Proofs.Pipeline.Reduction

/-! The order of the occurrences in a document. The registry keeps the last scoped definition of each
symbol, and references are sorted by all that is told of them later on, so that an order that keeps
the definitions of each symbol in theirs leads to the same result (`run_of_rearranges`). -/
namespace StaticCalls
open scoped List

namespace Mention
variable {m m' : Mention}

/-- Two references of one document that neither comes before are the same one. -/
theorem asReference_eq_of_order (hpath : m.path = m'.path) (h : (m.order m').isLE)
    (h' : (m'.order m).isLE) : m.asReference = m'.asReference := by
  have heq := Std.OrientedCmp.isLE_antisymm h h'
  simp only [order, Ordering.then_eq_eq, Position.compare_eq_eq_iff, Std.compare_eq_iff_eq] at heq
  obtain ⟨hstart, hstop, hsymbol⟩ := heq
  have hrange := SourceRange.eq_of_rank_eq hstart hstop
  rw [asReference_eq_iff, site, site, hpath, hsymbol, hrange]

end Mention

namespace ExtractStats
variable {s s' t t' : ExtractStats} {l l' : List ExtractStats}

/-- The counters are the same, and the skipped symbols at most in another order. -/
structure Rearranges (s s' : ExtractStats) : Prop where
  skipped : s.skipped ~ s'.skipped
  counters : { s with skipped := [] } = { s' with skipped := [] }

theorem Rearranges.refl (s : ExtractStats) : s.Rearranges s := ⟨.refl _, rfl⟩

theorem Rearranges.merge (h : s.Rearranges s') (ht : t.Rearranges t') :
    (s.merge t).Rearranges (s'.merge t') where
  skipped := h.skipped.append ht.skipped
  counters := by
    show ExtractStats.merge { s with skipped := [] } { t with skipped := [] } = _
    rw [h.counters, ht.counters]
    rfl

theorem Rearranges.foldl_merge (hl : List.Forall₂ Rearranges l l') (h : s.Rearranges s') :
    (l.foldl ExtractStats.merge s).Rearranges (l'.foldl ExtractStats.merge s') := by
  induction hl generalizing s s' with
  | nil => exact h
  | cons hfirst _ ih => exact ih (h.merge hfirst)

end ExtractStats

namespace Document
variable {policy : ReferencePolicy} {d d' : Document} {symbol : String}

def scopedDefinitions (d : Document) (symbol : String) : List Occurrence :=
  d.occurrences.filter fun o => o.isScopedDefinition && o.symbol == symbol

/-- The document has the same occurrences in another order, in which the scoped definitions of each
symbol keep theirs. -/
structure Rearranges (d d' : Document) : Prop where
  relativePath : d.relativePath = d'.relativePath
  symbols : d.symbols = d'.symbols
  occurrences : d.occurrences ~ d'.occurrences
  definitions : ∀ symbol, d.scopedDefinitions symbol = d'.scopedDefinitions symbol

/-- Only the symbols that occur matter. -/
theorem rearranges_iff : d.Rearranges d' ↔ d.relativePath = d'.relativePath ∧
    d.symbols = d'.symbols ∧ d.occurrences ~ d'.occurrences ∧
      ∀ o ∈ d.occurrences, d.scopedDefinitions o.symbol = d'.scopedDefinitions o.symbol := by
  constructor
  · intro h
    exact ⟨h.relativePath, h.symbols, h.occurrences, fun o _ => h.definitions o.symbol⟩
  · rintro ⟨hpath, hsymbols, hperm, hdefinitions⟩
    refine ⟨hpath, hsymbols, hperm, fun symbol => ?_⟩
    by_cases hoccurs : ∃ o ∈ d.occurrences, o.symbol = symbol
    · obtain ⟨o, ho, rfl⟩ := hoccurs
      exact hdefinitions o ho
    · have hnone : d.scopedDefinitions symbol = [] := by
        rw [scopedDefinitions, List.filter_eq_nil_iff]
        intro o ho hmatch
        rw [Bool.and_eq_true, beq_iff_eq] at hmatch
        exact hoccurs ⟨o, ho, hmatch.2⟩
      have hfilter : d.scopedDefinitions symbol ~ d'.scopedDefinitions symbol := hperm.filter _
      rw [hnone] at hfilter ⊢
      exact (List.nil_perm.mp hfilter).symm

instance : Decidable (d.Rearranges d') := decidable_of_iff _ rearranges_iff.symm

theorem get?_definitions_eq_none (hglobal : ¬ IsGlobal symbol) :
    (d.partition policy).definitions.get? symbol = none := by
  rw [Option.eq_none_iff_forall_ne_some]
  intro m hm
  exact hglobal (mem_definitions hm).2.2.1

namespace Rearranges

theorem classified_perm (h : d.Rearranges d') (policy : ReferencePolicy) :
    d.classified policy ~ d'.classified policy := by
  rw [classified, classified, mentions, mentions, h.relativePath]
  exact (h.occurrences.map _).map _

theorem select_perm (h : d.Rearranges d') (policy : ReferencePolicy) (test : Verdict → Bool) :
    select test (d.classified policy) ~ select test (d'.classified policy) :=
  ((h.classified_perm policy).filter _).map _

theorem definitions_eq (h : d.Rearranges d') (policy : ReferencePolicy) :
    (d.partition policy).definitions = (d'.partition policy).definitions := by
  refine StringMap.ext_get? fun symbol => ?_
  by_cases hglobal : IsGlobal symbol
  · have hlast : d.lastDefinition? symbol = d'.lastDefinition? symbol :=
      congrArg List.getLast? (h.definitions symbol)
    rw [get?_definitions hglobal, get?_definitions hglobal, hlast, h.relativePath]
  · rw [get?_definitions_eq_none hglobal, get?_definitions_eq_none hglobal]

end Rearranges

theorem path_of_mem_references {m : Mention} (h : m ∈ (d.partition policy).references) :
    m.path = d.relativePath := by
  obtain ⟨c, hc, rfl⟩ := List.mem_map.mp h
  obtain ⟨m, hm, rfl⟩ := List.mem_map.mp (List.mem_of_mem_filter hc)
  obtain ⟨o, _, rfl⟩ := List.mem_map.mp hm
  rfl

namespace Rearranges

/-- Sorting leaves no choice but between references that are the same. -/
theorem references_reduced_eq (h : d.Rearranges d') (policy : ReferencePolicy) :
    (d.partition policy).reduced.references = (d'.partition policy).reduced.references := by
  have hreference (d : Document) {m : Mention}
      (hm : m ∈ (d.partition policy).reduced.references) :
      m.asReference = m ∧ m.path = d.relativePath := by
    obtain ⟨m, hin, rfl⟩ := List.mem_map.mp hm
    have hpath : m.path = d.relativePath := path_of_mem_references (List.mem_mergeSort.mp hin)
    exact ⟨rfl, hpath⟩
  have hsorted (d : Document) : (d.partition policy).reduced.references.Pairwise
      fun a b => (a.order b).isLE :=
    List.pairwise_map.mpr (Partition.pairwise_sortedReferences (p := d.partition policy))
  refine List.Perm.eq_of_pairwise ?_ (hsorted d) (hsorted d') ?_
  · intro m m' hm hm' hle hle'
    obtain ⟨hself, hpath⟩ := hreference d hm
    obtain ⟨hself', hpath'⟩ := hreference d' hm'
    rw [← hself, ← hself']
    exact Mention.asReference_eq_of_order (by rw [hpath, hpath', h.relativePath]) hle hle'
  · rw [Partition.references_reduced, Partition.references_reduced]
    have hperm := (h.select_perm policy Verdict.isReference).map Mention.asReference
    exact (List.mergeSort_perm _ _).trans (hperm.trans (List.mergeSort_perm _ _).symm)

theorem reduced_eq (h : d.Rearranges d') (policy : ReferencePolicy) :
    (d.partition policy).reduced = (d'.partition policy).reduced :=
  Partition.reduced_eq h.relativePath (by rw [h.definitions_eq]) (h.references_reduced_eq policy)

theorem extractStats (h : d.Rearranges d') (policy : ReferencePolicy) :
    (d.extractStats policy).Rearranges (d'.extractStats policy) where
  skipped := (h.classified_perm policy).filterMap _
  counters := by
    have hselected (test : Verdict → Bool) := (h.select_perm policy test).length_eq
    have hsuffixes := StringMap.histogram_eq_of_perm ((h.classified_perm policy).filterMap
      fun c => c.2.suffix?.map Suffix.text)
    simp only [Document.extractStats, h.occurrences.length_eq, hselected, hsuffixes]

end Rearranges
end Document

namespace Index
variable {index index' : Index}

/-- The same documents in their order, with their occurrences rearranged. -/
def Rearranges (index index' : Index) : Prop :=
  List.Forall₂ Document.Rearranges index.documents index'.documents

theorem Rearranges.reduced_eq (h : index.Rearranges index') (policy : ReferencePolicy) :
    index.reduced policy = index'.reduced policy :=
  reduced_eq_of_forall₂ (h.imp fun _ _ hd => hd.reduced_eq policy)

theorem Rearranges.symbolTable_eq (h : index.Rearranges index') :
    index.symbolTable = index'.symbolTable := by
  have hsymbols : index.documents.map Document.symbols = index'.documents.map Document.symbols :=
    map_eq_map_iff_forall₂.mpr (h.imp fun _ _ hd => hd.symbols)
  rw [symbolTable, symbolTable, List.flatMap_def, List.flatMap_def, hsymbols]

theorem Rearranges.stats (h : index.Rearranges index') (policy : ReferencePolicy) :
    (index.extract policy).stats.Rearranges (index'.extract policy).stats := by
  have hdocuments : List.Forall₂ ExtractStats.Rearranges
      (index.documents.map (·.extractStats policy))
      (index'.documents.map (·.extractStats policy)) := by
    rw [List.forall₂_map_left_iff, List.forall₂_map_right_iff]
    exact h.imp fun _ _ hd => hd.extractStats policy
  have hfold := ExtractStats.Rearranges.foldl_merge hdocuments (.refl {})
  have hcounters := congrArg (fun s : ExtractStats =>
    { s with kindCounts := .histogram (index.symbolTable.values.map kindText) }) hfold.counters
  refine ⟨hfold.skipped, ?_⟩
  simp only [extract, ← h.symbolTable_eq]
  exact hcounters

end Index

namespace Pipeline
open Sample (Item)

/-- The same counters, apart from the time and from the order of the skipped symbols. -/
structure SameCounters (stats stats' : PipelineStats) : Prop where
  graph : SameGraphCounters stats stats'
  extract : stats.extract.Rearranges stats'.extract

/-- Where the scoped definitions of each symbol keep their order, a run does not depend on the order
of the occurrences in a document. -/
theorem run_of_rearranges (config : Config) {index index' : Index} (h : index.Rearranges index') :
    Alike SameCounters (run config.analysis.referencePolicy index).result
      (run config.analysis.referencePolicy index').result := by
  refine alike_of_reduced (h.reduced_eq _) fun stats stats' hgraph hextract hextract' => ⟨hgraph, ?_⟩
  rw [hextract, hextract']
  exact h.stats _

/-- Two definitions of a function inside of another one, calls that start together, one of them
listed twice, and symbols that have no parse. -/
def nested : Document :=
  Sample.document "pkg/a.go" [.function Sample.caller 0 9, .function Sample.callee 2 5,
    .call Sample.callee 3 1, .call Sample.libraryCall 3 1, .call "no symbol" 4 1,
    .function Sample.callee 2 4, .call Sample.callee 3 1, .call "nor this" 5 1]

/-- Calls come first, and the function inside comes before the other one. -/
def shuffled : Document :=
  { nested with
    occurrences := [Item.call "nor this" 5 1, .call Sample.libraryCall 3 1,
      .function Sample.callee 2 5, .call Sample.callee 3 1, .function Sample.callee 2 4,
      .function Sample.caller 0 9, .call Sample.callee 3 1, .call "no symbol" 4 1].map
        Item.occurrence }

theorem nested_run_of_rearranges : (⟨[nested]⟩ : Index).Rearranges ⟨[shuffled]⟩ ∧
    (∃ result, (run ({} : Config).analysis.referencePolicy ⟨[nested]⟩).result = .ok result) ∧
    Alike SameCounters (run ({} : Config).analysis.referencePolicy ⟨[nested]⟩).result
      (run ({} : Config).analysis.referencePolicy ⟨[shuffled]⟩).result := by
  have hrearranges : (⟨[nested]⟩ : Index).Rearranges ⟨[shuffled]⟩ :=
    .cons (by decide +kernel) .nil
  have hrest : ∀ d ∈ (⟨[nested]⟩ : Index).documents.tail, (d.partition .methods).references = [] :=
    by simp
  exact ⟨hrearranges, exists_result_of_tail hrest, run_of_rearranges {} hrearranges⟩

end Pipeline
end StaticCalls
