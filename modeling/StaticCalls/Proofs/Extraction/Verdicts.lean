import StaticCalls.Proofs.Extraction.Definitions

/-! What becomes of an occurrence, told by the parse of its symbol. A symbol that has a parse is
neither empty nor local and has a last descriptor, so an occurrence is hidden, skipped with the
error of its symbol, or judged by its last descriptor (`Verdict.judged_ofOccurrence`). -/
namespace StaticCalls
variable {symbol : String} {policy : ReferencePolicy} {o : Occurrence}

namespace ParsedSymbol

theorem exists_lastDescriptor_of_parse {parsed : ParsedSymbol} (h : parse symbol = .ok parsed) :
    ∃ last, parsed.lastDescriptor? = some last := by
  unfold parse at h
  split at h
  next => cases h
  next =>
    split at h
    next => cases h
    next =>
      split at h
      next => cases h
      next =>
        split at h
        next => cases h
        next hne =>
          cases h
          exact ⟨_, List.getLast?_eq_some_getLast hne⟩

theorem parse_of_hidden (h : symbol = "" || isLocal symbol) : ∃ e, parse symbol = .error e := by
  unfold parse
  split
  next => exact ⟨_, rfl⟩
  next hne =>
    have hlocal : isLocal symbol := by simpa [hne] using h
    rw [if_pos hlocal]
    exact ⟨_, rfl⟩

end ParsedSymbol
open ParsedSymbol

namespace Suffix

theorem ofSymbol_of_parse {parsed : ParsedSymbol} {last : Descriptor}
    (h : parse symbol = .ok parsed) (hlast : parsed.lastDescriptor? = some last) :
    ofSymbol symbol = .ok last.suffix := by
  rw [ofSymbol, h]
  simp only [bind, Except.bind, hlast]
  rfl

/-- A symbol without a parse has no suffix. -/
theorem ofSymbol_of_parse_error {e : SymbolError} (h : parse symbol = .error e) :
    ofSymbol symbol = .error e := by
  rw [ofSymbol, h]
  rfl

end Suffix

/-- The global symbols are those that have a parse. -/
theorem isGlobal_iff_parse : IsGlobal symbol ↔ ∃ parsed, parse symbol = .ok parsed := by
  cases hparse : parse symbol with
  | error e =>
    have hsuffix := Suffix.ofSymbol_of_parse_error hparse
    simp [IsGlobal, hsuffix]
  | ok parsed =>
    obtain ⟨last, hlast⟩ := exists_lastDescriptor_of_parse hparse
    refine ⟨fun _ => ⟨parsed, rfl⟩, fun _ => ⟨fun hhidden => ?_, last.suffix, ?_⟩⟩
    · obtain ⟨e, he⟩ := parse_of_hidden hhidden
      rw [hparse] at he
      cases he
    · exact Suffix.ofSymbol_of_parse hparse hlast

namespace Occurrence

/-- Its symbol is empty or private to the document. -/
def isHidden (o : Occurrence) : Bool := o.symbol = "" || isLocal o.symbol

/-- The suffix of the last descriptor, if the symbol has a parse. -/
def lastSuffix? (o : Occurrence) : Option Suffix :=
  match parse o.symbol with
  | .error _ => none
  | .ok parsed => parsed.lastDescriptor?.map Descriptor.suffix

/-- No scoped definition, of a symbol that is neither empty nor local and has a parse, with a last
descriptor that the policy counts. -/
def isCandidate (policy : ReferencePolicy) (o : Occurrence) : Bool :=
  !o.isHidden && !o.isScopedDefinition && o.lastSuffix?.any policy.accepts

/-- The same with a last descriptor that the policy does not count. -/
def isRejected (policy : ReferencePolicy) (o : Occurrence) : Bool :=
  !o.isHidden && !o.isScopedDefinition && o.lastSuffix?.any fun suffix => !policy.accepts suffix

theorem lastSuffix?_of_parse {parsed : ParsedSymbol} {last : Descriptor}
    (h : parse o.symbol = .ok parsed) (hlast : parsed.lastDescriptor? = some last) :
    o.lastSuffix? = some last.suffix := by
  simp only [lastSuffix?, h, hlast, Option.map_some]

theorem isHidden_eq_false_of_parse {parsed : ParsedSymbol} (h : parse o.symbol = .ok parsed) :
    o.isHidden = false := by
  have hglobal := (isGlobal_iff_parse.mpr ⟨parsed, h⟩).1
  simpa [isHidden] using hglobal

end Occurrence

namespace Verdict

/-- The verdict on an occurrence, with what its symbol is. -/
inductive Judged (policy : ReferencePolicy) (o : Occurrence) : Verdict → Prop where
  | hidden (h : o.isHidden) : Judged policy o .hidden
  | unparseable {e : SymbolError} (h : o.isHidden = false) (hparse : parse o.symbol = .error e) :
      Judged policy o (.unparseable e)
  | definition {parsed last} (hparse : parse o.symbol = .ok parsed)
      (hlast : parsed.lastDescriptor? = some last) (hscoped : o.isScopedDefinition) :
      Judged policy o (.definition last.suffix)
  | reference {parsed last} (hparse : parse o.symbol = .ok parsed)
      (hlast : parsed.lastDescriptor? = some last) (hscoped : o.isScopedDefinition = false)
      (haccepts : policy.accepts last.suffix) : Judged policy o (.reference last.suffix)
  | rejected {parsed last} (hparse : parse o.symbol = .ok parsed)
      (hlast : parsed.lastDescriptor? = some last) (hscoped : o.isScopedDefinition = false)
      (haccepts : policy.accepts last.suffix = false) : Judged policy o .rejected

theorem judged_ofOccurrence (policy : ReferencePolicy) (o : Occurrence) :
    Judged policy o (ofOccurrence policy o) := by
  unfold ofOccurrence
  split
  next hhidden => exact .hidden hhidden
  next hshown =>
    have hshown : o.isHidden = false := eq_false_of_ne_true hshown
    cases hparse : parse o.symbol with
    | error e =>
      rw [Suffix.ofSymbol_of_parse_error hparse]
      exact .unparseable hshown hparse
    | ok parsed =>
      obtain ⟨last, hlast⟩ := exists_lastDescriptor_of_parse hparse
      rw [Suffix.ofSymbol_of_parse hparse hlast]
      by_cases hscoped : o.isScopedDefinition
      · simp only [hscoped]
        exact .definition hparse hlast hscoped
      · by_cases haccepts : policy.accepts last.suffix
        · simp only [hscoped, haccepts]
          exact .reference hparse hlast (eq_false_of_ne_true hscoped) haccepts
        · simp only [hscoped, haccepts]
          exact .rejected hparse hlast (eq_false_of_ne_true hscoped)
            (eq_false_of_ne_true haccepts)

/-! The tests that the extraction makes on a verdict, as tests on the occurrence. -/

def isRejected : Verdict → Bool
  | rejected => true
  | _ => false

namespace Judged
variable {verdict : Verdict}

theorem isReference_eq (h : Judged policy o verdict) : verdict.isReference = o.isCandidate policy := by
  unfold Occurrence.isCandidate
  cases h with
  | hidden h => simp [h, isReference]
  | unparseable _ hparse => simp [Occurrence.lastSuffix?, hparse, isReference]
  | definition _ _ hscoped => simp [hscoped, isReference]
  | reference hparse hlast hscoped haccepts =>
    simp [Occurrence.isHidden_eq_false_of_parse hparse, hscoped,
      Occurrence.lastSuffix?_of_parse hparse hlast, haccepts, isReference]
  | rejected hparse hlast _ haccepts =>
    simp [Occurrence.lastSuffix?_of_parse hparse hlast, haccepts, isReference]

theorem isRejected_eq (h : Judged policy o verdict) : verdict.isRejected = o.isRejected policy := by
  unfold Occurrence.isRejected
  cases h with
  | hidden h => simp [h, isRejected]
  | unparseable _ hparse => simp [Occurrence.lastSuffix?, hparse, isRejected]
  | definition _ _ hscoped => simp [hscoped, isRejected]
  | reference hparse hlast _ haccepts =>
    simp [Occurrence.lastSuffix?_of_parse hparse hlast, haccepts, isRejected]
  | rejected hparse hlast hscoped haccepts =>
    simp [Occurrence.isHidden_eq_false_of_parse hparse, hscoped,
      Occurrence.lastSuffix?_of_parse hparse hlast, haccepts, isRejected]

end Judged
end Verdict
end StaticCalls
