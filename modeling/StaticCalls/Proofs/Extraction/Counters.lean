import StaticCalls.Config
import StaticCalls.Proofs.Extraction.Verdicts
import StaticCalls.Proofs.StringMap.Values
import Mathlib.Algebra.BigOperators.Group.List.Basic

/-! The counters of an extraction. Merging adds them up document by document, and within a document
each occurrence gets one verdict, so that the counters of the whole index balance
(`extract_balances`). -/
namespace StaticCalls

namespace ExtractStats

/-- A number that merging adds up, and that the kinds of symbols have no effect on. -/
structure IsCounter (f : ExtractStats → Nat) : Prop where
  zero : f {} = 0
  merge : ∀ a b, f (a.merge b) = f a + f b
  kinds : ∀ (s : ExtractStats) kindCounts, f { s with kindCounts } = f s

namespace IsCounter
variable {f g : ExtractStats → Nat}

theorem add (hf : IsCounter f) (hg : IsCounter g) : IsCounter fun s => f s + g s where
  zero := by rw [hf.zero, hg.zero]
  merge a b := by
    rw [hf.merge, hg.merge]
    omega
  kinds s kindCounts := by rw [hf.kinds, hg.kinds]

theorem occurrences : IsCounter ExtractStats.occurrences := ⟨rfl, fun _ _ => rfl, fun _ _ => rfl⟩

theorem localsSkipped : IsCounter ExtractStats.localsSkipped :=
  ⟨rfl, fun _ _ => rfl, fun _ _ => rfl⟩

theorem definitions : IsCounter ExtractStats.definitions := ⟨rfl, fun _ _ => rfl, fun _ _ => rfl⟩

theorem references : IsCounter ExtractStats.references := ⟨rfl, fun _ _ => rfl, fun _ _ => rfl⟩

theorem skipped : IsCounter fun s => s.skipped.length :=
  ⟨rfl, fun _ _ => List.length_append, fun _ _ => rfl⟩

theorem suffixCounts : IsCounter fun s => s.suffixCounts.values.sum :=
  ⟨rfl, fun a b => a.suffixCounts.sum_values_add b.suffixCounts, fun _ _ => rfl⟩

theorem foldl_merge (hf : IsCounter f) (s : ExtractStats) (l : List ExtractStats) :
    f (l.foldl ExtractStats.merge s) = f s + (l.map f).sum := by
  induction l generalizing s with
  | nil => rfl
  | cons s' rest ih => rw [List.foldl_cons, ih, hf.merge, List.map_cons, List.sum_cons, Nat.add_assoc]

/-- The counter of an index is the sum of those of its documents. -/
theorem extract (hf : IsCounter f) (index : Index) (policy : ReferencePolicy) :
    f (index.extract policy).stats =
      (index.documents.map fun d => f (d.extractStats policy)).sum := by
  have hfold := hf.foldl_merge {} (index.documents.map (·.extractStats policy))
  rw [hf.zero, Nat.zero_add, List.map_map] at hfold
  rw [Index.extract, hf.kinds]
  exact hfold

end IsCounter
end ExtractStats

theorem Occurrence.isRejected_any (o : Occurrence) : o.isRejected .any = false := by
  rw [isRejected]
  cases o.lastSuffix? <;> simp [ReferencePolicy.accepts]

namespace Document
variable {d : Document} {policy : ReferencePolicy}

/-- Each verdict is counted once. -/
theorem length_classified (classified : List (Mention × Verdict)) : classified.length =
    (select Verdict.isHidden classified).length + (skipped classified).length +
      (select Verdict.isDefinition classified).length +
      (select Verdict.isReference classified).length +
      (select Verdict.isRejected classified).length := by
  induction classified with
  | nil => rfl
  | cons c rest ih =>
    obtain ⟨m, verdict⟩ := c
    rw [List.length_cons, ih]
    cases verdict <;> simp [select, skipped, Verdict.isHidden, Verdict.error?,
      Verdict.isDefinition, Verdict.isReference, Verdict.isRejected] <;> omega

theorem length_suffixes (classified : List (Mention × Verdict)) :
    (classified.filterMap fun c => c.2.suffix?.map Suffix.text).length =
      (select Verdict.isDefinition classified).length +
        (select Verdict.isReference classified).length := by
  induction classified with
  | nil => rfl
  | cons c rest ih =>
    obtain ⟨m, verdict⟩ := c
    rw [List.filterMap_cons]
    cases verdict <;> simp [select, Verdict.suffix?, Verdict.isDefinition,
      Verdict.isReference] at ih ⊢ <;> omega

/-- The occurrences that only the policy leaves out. -/
def rejected (d : Document) (policy : ReferencePolicy) : List Occurrence :=
  d.occurrences.filter (Occurrence.isRejected policy)

theorem length_rejected (d : Document) (policy : ReferencePolicy) :
    (select Verdict.isRejected (d.classified policy)).length = (d.rejected policy).length := by
  have htest : (fun o => (Verdict.ofOccurrence policy o).isRejected) =
      Occurrence.isRejected policy := by
    funext o
    exact (Verdict.judged_ofOccurrence policy o).isRejected_eq
  rw [select_classified, mentions, List.filter_map, List.length_map, rejected]
  simp only [Function.comp_def, htest]

theorem occurrences_extractStats (d : Document) (policy : ReferencePolicy) :
    d.occurrences.length = (d.extractStats policy).localsSkipped +
      (d.extractStats policy).skipped.length + (d.extractStats policy).definitions +
      (d.extractStats policy).references + (d.rejected policy).length := by
  have hlength : (d.classified policy).length = d.occurrences.length := by
    simp [classified, mentions]
  rw [← hlength, length_classified, length_rejected]
  rfl

theorem suffixCounts_extractStats (d : Document) (policy : ReferencePolicy) :
    (d.extractStats policy).suffixCounts.values.sum =
      (d.extractStats policy).definitions + (d.extractStats policy).references := by
  rw [extractStats, StringMap.sum_values_histogram, length_suffixes]

end Document

namespace Index
variable {index : Index} {policy : ReferencePolicy}

/-- The occurrences that only the policy leaves out. -/
def rejected (index : Index) (policy : ReferencePolicy) : List Occurrence :=
  index.documents.flatMap (·.rejected policy)

/-- The counters, the partitions and the global maps of an extraction, each against the others. -/
structure Balances (index : Index) (policy : ReferencePolicy) (e : ExtractedElements) : Prop where
  counted : e.stats.occurrences = index.occurrenceCount
  verdicts : e.stats.occurrences = e.stats.localsSkipped + e.stats.skipped.length +
    e.stats.definitions + e.stats.references + (index.rejected policy).length
  unrejected : policy = .any → index.rejected policy = []
  suffixes : e.stats.suffixCounts.values.sum = e.stats.definitions + e.stats.references
  partitioned : e.stats.references = (e.partitions.map fun p => p.references.length).sum
  grouped : e.stats.references = (e.references.values.map List.length).sum
  groups : ∀ symbol references, e.references.get? symbol = some references ↔ references ≠ [] ∧
    references = (e.partitions.flatMap Partition.references).filter fun m => m.symbol == symbol
  keys : ∀ symbol, symbol ∈ e.definitions.keys ↔ ∃ p ∈ e.partitions, symbol ∈ p.definitions.keys

theorem length_rejected (index : Index) (policy : ReferencePolicy) :
    (index.rejected policy).length =
      (index.documents.map fun d => (d.rejected policy).length).sum :=
  List.length_flatMap

/-- The references of an index are those of its partitions. -/
theorem references_eq_sum (index : Index) (policy : ReferencePolicy) :
    (index.extract policy).stats.references =
      ((index.extract policy).partitions.map fun p => p.references.length).sum := by
  rw [ExtractStats.IsCounter.references.extract]
  show _ = ((index.documents.map (·.partition policy)).map _).sum
  rw [List.map_map]
  rfl

theorem extract_references (index : Index) (policy : ReferencePolicy) :
    (index.extract policy).references = StringMap.groupBy Mention.symbol
      ((index.extract policy).partitions.flatMap Partition.references) := rfl

/-- Whatever the policy, and whether or not the documents are worked on side by side, the counters
and the maps of an extraction are in step. -/
theorem extract_balances (config : Config) (pool : Workers) (index : Index) :
    index.Balances config.analysis.referencePolicy
      (index.extract config.analysis.referencePolicy (config.analysis.workers pool)) := by
  rw [extract_workers]
  generalize config.analysis.referencePolicy = policy
  constructor
  case counted =>
    rw [ExtractStats.IsCounter.occurrences.extract, occurrenceCount, List.length_flatMap]
    rfl
  case verdicts =>
    have hsum := ExtractStats.IsCounter.localsSkipped.add .skipped |>.add .definitions
      |>.add .references |>.extract index policy
    rw [ExtractStats.IsCounter.occurrences.extract, hsum, length_rejected, ← List.sum_map_add]
    refine congrArg List.sum (List.map_congr_left fun d _ => ?_)
    exact d.occurrences_extractStats policy
  case unrejected =>
    intro hany
    rw [hany, rejected, List.flatMap_eq_nil_iff]
    intro d _
    rw [Document.rejected, List.filter_eq_nil_iff]
    intro o _
    rw [o.isRejected_any]
    exact Bool.false_ne_true
  case suffixes =>
    have hsum := ExtractStats.IsCounter.definitions.add .references |>.extract index policy
    rw [ExtractStats.IsCounter.suffixCounts.extract, hsum]
    refine congrArg List.sum (List.map_congr_left fun d _ => ?_)
    exact d.suffixCounts_extractStats policy
  case partitioned => exact index.references_eq_sum policy
  case grouped =>
    have hperm := StringMap.flatten_values_groupBy Mention.symbol
      ((index.extract policy).partitions.flatMap Partition.references)
    rw [references_eq_sum, ← List.length_flatMap, extract_references, ← hperm.length_eq,
      List.length_flatten]
  case groups =>
    intro symbol references
    rw [extract_references]
    exact StringMap.get?_groupBy_eq_some_iff
  case keys =>
    intro symbol
    rw [StringMap.mem_keys_iff]
    show (StringMap.ofList _).contains symbol ↔ _
    rw [StringMap.contains_ofList_iff, List.map_flatMap, List.mem_flatMap]
    rfl

end Index
end StaticCalls
