import StaticCalls.Extraction.Elements

/-! The scoped definitions of a document. Whether a symbol takes part is decided by the symbol
alone, and of its scoped definitions in a document the last one is kept. -/
namespace StaticCalls

/-- The symbol is neither empty nor local, and it has a parse. -/
def IsGlobal (symbol : String) : Prop :=
  ¬ (symbol = "" || ParsedSymbol.isLocal symbol) ∧ ∃ suffix, Suffix.ofSymbol symbol = .ok suffix

namespace Verdict

/-- An occurrence is kept as a definition if it is a scoped definition of a global symbol. -/
theorem isDefinition_ofOccurrence_iff {policy : ReferencePolicy} {o : Occurrence} :
    (ofOccurrence policy o).isDefinition ↔ IsGlobal o.symbol ∧ o.isScopedDefinition := by
  unfold ofOccurrence IsGlobal
  split
  next hhidden => simp [isDefinition, hhidden]
  next hshown =>
    cases hsuffix : Suffix.ofSymbol o.symbol with
    | error e => simp [isDefinition]
    | ok suffix =>
      by_cases hscoped : o.isScopedDefinition
      · simp [isDefinition, hshown, hscoped]
      · by_cases haccepts : policy.accepts suffix <;>
          simp [isDefinition, hscoped, haccepts]

end Verdict

namespace Document
variable {d : Document} {policy : ReferencePolicy} {symbol : String}

/-- The last scoped definition of a symbol in the document. -/
def lastDefinition? (d : Document) (symbol : String) : Option Occurrence :=
  (d.occurrences.filter fun o => o.isScopedDefinition && o.symbol == symbol).getLast?

theorem select_classified (d : Document) (policy : ReferencePolicy) (test : Verdict → Bool) :
    select test (d.classified policy) =
      d.mentions.filter fun m => test (Verdict.ofOccurrence policy m.occurrence) := by
  rw [select, classified, List.filter_map, List.map_map]
  exact List.map_id _

/-- The registry of a document holds the last scoped definition of each global symbol. -/
theorem get?_definitions (hglobal : IsGlobal symbol) :
    (d.partition policy).definitions.get? symbol =
      (d.lastDefinition? symbol).map fun o => ⟨d.relativePath, o⟩ := by
  have hfilter : ∀ o : Occurrence, (o.symbol == symbol &&
      (Verdict.ofOccurrence policy o).isDefinition) =
        (o.isScopedDefinition && o.symbol == symbol) := by
    intro o
    rw [Bool.eq_iff_iff]
    simp only [Bool.and_eq_true, beq_iff_eq, Verdict.isDefinition_ofOccurrence_iff]
    constructor
    · rintro ⟨hsymbol, _, hscoped⟩
      exact ⟨hscoped, hsymbol⟩
    · rintro ⟨hscoped, rfl⟩
      exact ⟨rfl, hglobal, hscoped⟩
  simp only [partition, StringMap.get?_ofList, StringMap.last?, select_classified, mentions,
    lastDefinition?, List.filter_map, List.filter_filter, Function.comp_def, List.map_map,
    List.getLast?_map, Option.map_map, hfilter]

theorem mem_definitions {m : Mention}
    (h : (d.partition policy).definitions.get? symbol = some m) :
    m.symbol = symbol ∧ m.path = d.relativePath ∧ IsGlobal symbol ∧
      m.occurrence.isScopedDefinition := by
  simp only [partition, StringMap.get?_ofList, StringMap.last?, Option.map_eq_some_iff] at h
  obtain ⟨⟨key, _⟩, hlast, rfl⟩ := h
  have hmem := List.mem_of_getLast? hlast
  simp only [List.mem_filter, select_classified, List.mem_map, Prod.mk.injEq, mentions,
    beq_iff_eq] at hmem
  obtain ⟨⟨m, ⟨⟨o, _, rfl⟩, hdef⟩, rfl, rfl⟩, rfl⟩ := hmem
  rw [Verdict.isDefinition_ofOccurrence_iff] at hdef
  exact ⟨rfl, rfl, hdef⟩

end Document
end StaticCalls
