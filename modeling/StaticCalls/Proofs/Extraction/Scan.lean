import StaticCalls.Proofs.Extraction.Verdicts
import StaticCalls.Proofs.StringMap.Values

/-! One pass over the occurrences of a document, which remembers the suffix of each symbol that it
has met, or the reason why there is none. What is remembered is what would be found again, so that
the pass sorts each occurrence as if there were no other (`scan_sorts`). -/
namespace StaticCalls

/-- What a pass has gathered so far. -/
structure Scan where
  partition : Partition
  stats : ExtractStats
  /-- What has been found about each symbol. -/
  suffixes : StringMap (Except SymbolError Suffix)

namespace Scan

def start (path : String) : Scan := ⟨⟨path, .empty, []⟩, { documents := 1 }, .empty⟩

/-- What is remembered about a symbol, or found out if it is met for the first time. -/
def suffixOf (s : Scan) (symbol : String) : Except SymbolError Suffix :=
  (s.suffixes.get? symbol).getD (Suffix.ofSymbol symbol)

def hide (s : Scan) : Scan :=
  { s with stats.localsSkipped := s.stats.localsSkipped + 1 }

def skip (s : Scan) (m : Mention) (e : SymbolError) : Scan :=
  { s with stats.skipped := s.stats.skipped ++ [⟨m.symbol, m.path, e.message m.symbol⟩] }

/-- A scoped definition replaces one of the same symbol. -/
def define (s : Scan) (m : Mention) : Scan :=
  { s with
    partition.definitions := s.partition.definitions.insert m.symbol m
    stats.definitions := s.stats.definitions + 1 }

def refer (s : Scan) (m : Mention) : Scan :=
  { s with
    partition.references := s.partition.references ++ [m]
    stats.references := s.stats.references + 1 }

def count (s : Scan) (suffix : Suffix) : Scan :=
  { s with
    stats.suffixCounts :=
      s.stats.suffixCounts.insert suffix.text (s.stats.suffixCounts.getD suffix.text 0 + 1) }

/-- Takes the next occurrence. -/
def step (policy : ReferencePolicy) (s : Scan) (m : Mention) : Scan :=
  let s := { s with stats.occurrences := s.stats.occurrences + 1 }
  if m.symbol = "" || ParsedSymbol.isLocal m.symbol then s.hide
  else
    let found := s.suffixOf m.symbol
    let s := { s with suffixes := s.suffixes.insert m.symbol found }
    match found with
    | .error e => s.skip m e
    | .ok suffix =>
        if m.occurrence.isScopedDefinition then (s.define m).count suffix
        else if policy.accepts suffix then (s.refer m).count suffix
        else s

end Scan

namespace Document
variable {d : Document} {policy : ReferencePolicy}

def scan (d : Document) (policy : ReferencePolicy) : Scan :=
  d.mentions.foldl (Scan.step policy) (.start d.relativePath)

/-- The document with one more occurrence at its end. -/
def withOccurrence (d : Document) (o : Occurrence) : Document :=
  { d with occurrences := d.occurrences ++ [o] }

theorem classified_withOccurrence (d : Document) (policy : ReferencePolicy) (o : Occurrence) :
    (d.withOccurrence o).classified policy =
      d.classified policy ++ [(⟨d.relativePath, o⟩, Verdict.ofOccurrence policy o)] := by
  simp [classified, mentions, withOccurrence]

theorem select_concat (test : Verdict → Bool) (classified : List (Mention × Verdict)) (m : Mention)
    (verdict : Verdict) : select test (classified ++ [(m, verdict)]) =
      select test classified ++ if test verdict then [m] else [] := by
  cases h : test verdict <;> simp [select, h]

theorem skipped_concat (classified : List (Mention × Verdict)) (m : Mention) (verdict : Verdict) :
    skipped (classified ++ [(m, verdict)]) = skipped classified ++
      (verdict.error?.map fun e => ⟨m.symbol, m.path, e.message m.symbol⟩).toList := by
  rw [skipped, List.filterMap_append, skipped]
  cases h : verdict.error? <;> simp [h]

end Document

namespace Scan
variable {policy : ReferencePolicy} {d : Document} {s : Scan} {o : Occurrence}

/-- What is remembered is what would be found again. -/
def Remembers (suffixes : StringMap (Except SymbolError Suffix)) : Prop :=
  ∀ symbol found, suffixes.get? symbol = some found → found = Suffix.ofSymbol symbol

/-- The state of a pass that has come to the end of a document. -/
structure Gathers (policy : ReferencePolicy) (d : Document) (s : Scan) : Prop where
  partition : s.partition = d.partition policy
  stats : s.stats = d.extractStats policy
  remembers : Remembers s.suffixes

theorem suffixOf_eq (h : Remembers s.suffixes) (symbol : String) :
    s.suffixOf symbol = Suffix.ofSymbol symbol := by
  rw [suffixOf]
  cases hget : s.suffixes.get? symbol with
  | none => rfl
  | some found => exact h symbol found hget

theorem Remembers.insert {suffixes : StringMap (Except SymbolError Suffix)} (h : Remembers suffixes)
    (symbol : String) : Remembers (suffixes.insert symbol (Suffix.ofSymbol symbol)) := by
  intro symbol' found hget
  rw [StringMap.get?_insert] at hget
  split at hget
  next heq =>
    cases hget
    rw [heq]
  next => exact h symbol' found hget

/-- What a verdict makes of an occurrence that has been counted. -/
def take (s : Scan) (m : Mention) : Verdict → Scan
  | .hidden => s.hide
  | .unparseable e => s.skip m e
  | .definition suffix => (s.define m).count suffix
  | .reference suffix => (s.refer m).count suffix
  | .rejected => s

/-- A step goes by the verdict on its own occurrence, whatever is remembered. -/
theorem step_eq_take (h : Remembers s.suffixes) (policy : ReferencePolicy) (m : Mention) :
    ∃ suffixes, Remembers suffixes ∧ s.step policy m =
      take { s with stats.occurrences := s.stats.occurrences + 1, suffixes } m
        (Verdict.ofOccurrence policy m.occurrence) := by
  unfold step Verdict.ofOccurrence
  by_cases hhidden : m.symbol = "" || ParsedSymbol.isLocal m.symbol
  · refine ⟨s.suffixes, h, ?_⟩
    rw [if_pos hhidden, if_pos hhidden]
    rfl
  · refine ⟨s.suffixes.insert m.symbol (Suffix.ofSymbol m.symbol), h.insert m.symbol, ?_⟩
    have hfound (stats : ExtractStats) : suffixOf { s with stats } m.symbol = Suffix.ofSymbol m.symbol :=
      suffixOf_eq h m.symbol
    rw [if_neg hhidden, if_neg hhidden, hfound]
    cases Suffix.ofSymbol m.symbol with
    | error e => rfl
    | ok suffix =>
      by_cases hscoped : m.occurrence.isScopedDefinition
      · simp only [hscoped, if_true]
        rfl
      · by_cases haccepts : policy.accepts suffix
        · simp only [hscoped, haccepts, if_true, Bool.false_eq_true, if_false]
          rfl
        · simp only [hscoped, haccepts, Bool.false_eq_true, if_false]
          rfl

/-- What a verdict makes of an occurrence is what the longer document holds. -/
theorem take_withOccurrence (d : Document) (policy : ReferencePolicy) (o : Occurrence)
    (suffixes : StringMap (Except SymbolError Suffix)) :
    take ⟨d.partition policy, { d.extractStats policy with
        occurrences := (d.extractStats policy).occurrences + 1 }, suffixes⟩
      ⟨d.relativePath, o⟩ (Verdict.ofOccurrence policy o) =
    ⟨(d.withOccurrence o).partition policy, (d.withOccurrence o).extractStats policy, suffixes⟩ := by
  have hclassified := d.classified_withOccurrence policy o
  have hlength : (d.withOccurrence o).occurrences.length = d.occurrences.length + 1 := by
    simp [Document.withOccurrence]
  have hpath : (d.withOccurrence o).relativePath = d.relativePath := rfl
  simp only [Document.partition, Document.extractStats, hclassified, hlength, hpath,
    Document.select_concat, Document.skipped_concat, List.filterMap_append]
  cases Verdict.ofOccurrence policy o
  all_goals simp only [take, Verdict.isHidden, Verdict.isDefinition, Verdict.isReference,
    Verdict.error?, Verdict.suffix?]
  case hidden => simp [hide]
  case unparseable e => simp [skip]
  case definition suffix =>
    simp [define, count, StringMap.ofList_concat, StringMap.histogram_concat]
  case reference suffix => simp [refer, count, StringMap.histogram_concat]
  case rejected => simp

theorem Gathers.step (h : Gathers policy d s) (o : Occurrence) :
    Gathers policy (d.withOccurrence o) (s.step policy ⟨d.relativePath, o⟩) := by
  obtain ⟨partition, stats, suffixes⟩ := s
  obtain ⟨rfl, rfl, hremembers⟩ := h
  obtain ⟨suffixes', hremembers', hstep⟩ := step_eq_take hremembers policy ⟨d.relativePath, o⟩
  rw [hstep, take_withOccurrence]
  exact ⟨rfl, rfl, hremembers'⟩

/-- A pass over more occurrences gathers what the longer document holds. -/
theorem Gathers.foldl (h : Gathers policy d s) (l : List Occurrence) :
    Gathers policy { d with occurrences := d.occurrences ++ l }
      ((l.map (Mention.mk d.relativePath)).foldl (Scan.step policy) s) := by
  induction l generalizing d s with
  | nil =>
    rw [List.append_nil]
    exact h
  | cons o rest ih =>
    have hrest := ih (h.step o)
    rw [Document.withOccurrence, List.append_assoc] at hrest
    exact hrest

end Scan

namespace Document
variable {d : Document} {policy : ReferencePolicy}

theorem references_partition (d : Document) (policy : ReferencePolicy) :
    (d.partition policy).references =
      (d.occurrences.filter (Occurrence.isCandidate policy)).map (Mention.mk d.relativePath) := by
  have htest : (fun o => (Verdict.ofOccurrence policy o).isReference) =
      Occurrence.isCandidate policy := by
    funext o
    exact (Verdict.judged_ofOccurrence policy o).isReference_eq
  simp only [partition, select_classified, mentions, List.filter_map, Function.comp_def, htest]

end Document
end StaticCalls
