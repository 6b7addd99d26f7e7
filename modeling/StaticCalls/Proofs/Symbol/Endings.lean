import StaticCalls.Proofs.Extraction.Scan
import StaticCalls.Proofs.Symbol.Grammar

/-! How symbols end. A name may hold any character between its backticks, but it does not end in
a parenthesis, so that the end of a symbol tells the kind of its last descriptor, and with it which
occurrences are calls (`parse_tells_ending`). -/
namespace StaticCalls
open Text ParsedSymbol

namespace Suffix
variable {s s' : Suffix} {text : String}

/-- What stands at the end of a descriptor of this kind. -/
def ending : Suffix → String
  | nameSpace => "/"
  | type => "#"
  | term => "."
  | method => ")."
  | typeParameter => "]"
  | parameter => ")"
  | metaName => ":"
  | macroName => "!"

/-- The text ends as the kind says. A term ends in a period like a method, but not behind a
parenthesis. -/
def Ends (s : Suffix) (text : String) : Prop :=
  s.ending.toList <:+ text.toList ∧ (s = term → ¬ ").".toList <:+ text.toList)

instance : Decidable (s.Ends text) :=
  inferInstanceAs (Decidable (s.ending.toList <:+ text.toList ∧
    (s = term → ¬ ").".toList <:+ text.toList)))

theorem eq_of_ending_suffix (h : s.ending.toList <:+ s'.ending.toList) :
    s = s' ∨ s = term ∧ s' = method := by
  revert h
  cases s <;> cases s' <;> decide

/-- A text ends in one way only. -/
theorem Ends.unique (h : s.Ends text) (h' : s'.Ends text) : s = s' := by
  rcases List.suffix_or_suffix_of_suffix h.1 h'.1 with hin | hin
  · rcases eq_of_ending_suffix hin with heq | ⟨hterm, rfl⟩
    · exact heq
    · exact absurd h'.1 (h.2 hterm)
  · rcases eq_of_ending_suffix hin with heq | ⟨hterm, rfl⟩
    · exact heq.symm
    · exact absurd h.1 (h'.2 hterm)

theorem ending_of_mark? {mark : Char} (h : s.mark? = some mark) : s.ending.toList = [mark] := by
  cases s <;> cases h <;> rfl

end Suffix

namespace ParsedSymbol
variable {symbol : String} {parsed : ParsedSymbol} {text : List Char}

/-! ### The last descriptor -/

theorem exists_concat_of_nameSpelling {name : String} (h : NameSpelling name text) :
    ∃ front c, text = front ++ [c] ∧ c ≠ ')' := by
  cases h with
  | plain hne hchars =>
    have hnil : name.toList ≠ [] := by simpa using hne
    refine ⟨_, _, (List.dropLast_append_getLast hnil).symm, ?_⟩
    intro hlast
    have hchar := hchars _ (List.getLast_mem hnil)
    rw [hlast] at hchar
    exact absurd hchar (by decide)
  | escaped => exact ⟨_, _, rfl, by decide⟩

theorem not_method_ending_of_nameSpelling {name : String} (h : NameSpelling name text)
    (front : List Char) : ¬ ").".toList <:+ front ++ (text ++ ['.']) := by
  obtain ⟨init, c, rfl, hc⟩ := exists_concat_of_nameSpelling h
  rintro ⟨before, hbefore⟩
  have hend : before ++ [')'] ++ ['.'] = front ++ init ++ [c] ++ ['.'] := by simpa using hbefore
  have hlast := List.append_inj_right' (List.append_cancel_right hend) rfl
  simp only [List.cons.injEq, and_true] at hlast
  exact hc hlast.symm

/-- Each descriptor ends as its kind says, whatever stands before it. -/
theorem ends_of_spelling {d : Descriptor} (h : d.Spelling text) {front : List Char}
    (htext : symbol.toList = front ++ text) : d.suffix.Ends symbol := by
  unfold Suffix.Ends
  rw [htext]
  cases h with
  | @marked _ suffix text mark hname hmark =>
    constructor
    · rw [Suffix.ending_of_mark? hmark]
      exact ⟨front ++ text, by simp⟩
    · intro hterm
      cases hterm
      cases hmark
      exact not_method_ending_of_nameSpelling hname front
  | @method _ disambiguator text _ _ =>
    exact ⟨⟨front ++ (text ++ '(' :: disambiguator.toList), by simp [Suffix.ending]⟩, nofun⟩
  | @typeParameter _ text _ => exact ⟨⟨front ++ '[' :: text, by simp [Suffix.ending]⟩, nofun⟩
  | @parameter _ text _ => exact ⟨⟨front ++ '(' :: text, by simp [Suffix.ending]⟩, nofun⟩

theorem exists_last_of_pathSpelling {ds : List Descriptor} {last : Descriptor}
    (h : PathSpelling ds text) (hlast : ds.getLast? = some last) :
    ∃ front back, text = front ++ back ∧ last.Spelling back := by
  induction h with
  | nil => cases hlast
  | @cons d ds front rest hd hds ih =>
    cases ds with
    | nil =>
      cases hlast
      cases hds
      exact ⟨[], front, by simp, hd⟩
    | cons next ds =>
      rw [List.getLast?_cons_cons] at hlast
      obtain ⟨front', back, rfl, hback⟩ := ih hlast
      exact ⟨front ++ front', back, by simp, hback⟩

/-- The last descriptor of a parse can be read off the end of the symbol. -/
theorem suffix_eq_iff_ends {last : Descriptor} (h : parse symbol = .ok parsed)
    (hlast : parsed.lastDescriptor? = some last) (suffix : Suffix) :
    last.suffix = suffix ↔ suffix.Ends symbol := by
  obtain ⟨_, path, hpath, htext⟩ := read_eq_ok_iff.mp (read_of_parse h)
  obtain ⟨front, back, rfl, hback⟩ := exists_last_of_pathSpelling hpath hlast
  rw [← List.append_assoc] at htext
  have hends := ends_of_spelling hback htext
  constructor
  · rintro rfl
    exact hends
  · intro hsuffix
    exact hends.unique hsuffix

/-- Under the policy of methods, an occurrence that defines nothing is a call if its symbol ends
like a method. -/
theorem mem_references_iff_ends {d : Document} {o : Occurrence} (h : parse o.symbol = .ok parsed)
    (ho : o ∈ d.occurrences) (hscoped : o.isScopedDefinition = false) :
    (⟨d.relativePath, o⟩ : Mention) ∈ (d.partition .methods).references ↔
      ").".toList <:+ o.symbol.toList := by
  obtain ⟨last, hlast⟩ := exists_lastDescriptor_of_parse h
  have hcandidate : o.isCandidate .methods ↔ last.suffix = .method := by
    simp [Occurrence.isCandidate, Occurrence.isHidden_eq_false_of_parse h, hscoped,
      Occurrence.lastSuffix?_of_parse h hlast, ReferencePolicy.accepts, Suffix.isCallLike]
  have hmethod : Suffix.method.Ends o.symbol ↔ ").".toList <:+ o.symbol.toList := by
    simp [Suffix.Ends, Suffix.ending]
  rw [← hmethod, ← suffix_eq_iff_ends h hlast, ← hcandidate, d.references_partition]
  simp [ho]

/-- What ends a symbol that has a parse tells the kind of its last descriptor, and whether its
occurrences are calls. -/
theorem parse_tells_ending (h : parse symbol = .ok parsed) :
    (∃ last, parsed.lastDescriptor? = some last ∧ Suffix.ofSymbol symbol = .ok last.suffix ∧
      ∀ suffix, last.suffix = suffix ↔ suffix.Ends symbol) ∧
    ∀ (d : Document) (o : Occurrence), o ∈ d.occurrences → o.symbol = symbol →
      o.isScopedDefinition = false →
      ((⟨d.relativePath, o⟩ : Mention) ∈ (d.partition .methods).references ↔
        ").".toList <:+ symbol.toList) := by
  obtain ⟨last, hlast⟩ := exists_lastDescriptor_of_parse h
  refine ⟨⟨last, hlast, Suffix.ofSymbol_of_parse h hlast, suffix_eq_iff_ends h hlast⟩, ?_⟩
  rintro d o ho rfl hscoped
  exact mem_references_iff_ends h ho hscoped

/-- The name of a method ends like a method itself, behind a type whose name ends like a type
parameter. -/
def escapedCall : Occurrence :=
  .reference "go mod pkg v1 `T[x]`#`f).`(+1)." (.ofCoordinates 3 4 3 9)

theorem escapedCall_tells_ending :
    parse escapedCall.symbol = .ok ⟨"go", "mod", "pkg", "v1",
      [⟨"T[x]", "", .type⟩, ⟨"f).", "+1", .method⟩]⟩ ∧
    Suffix.ofSymbol escapedCall.symbol = .ok .method ∧
    (∀ suffix, Suffix.method = suffix ↔ suffix.Ends escapedCall.symbol) ∧
    escapedCall ∈ [escapedCall] ∧ escapedCall.isScopedDefinition = false ∧
    (⟨"call.go", escapedCall⟩ : Mention) ∈
      (Document.partition ⟨"call.go", [escapedCall], []⟩ .methods).references := by
  have h : parse escapedCall.symbol = .ok ⟨"go", "mod", "pkg", "v1",
      [⟨"T[x]", "", .type⟩, ⟨"f).", "+1", .method⟩]⟩ := by decide +kernel
  have hscoped : escapedCall.isScopedDefinition = false := by decide
  have hends : ").".toList <:+ escapedCall.symbol.toList := by decide
  obtain ⟨⟨last, hlast, hsuffix, hiff⟩, hcalls⟩ := parse_tells_ending h
  cases hlast
  exact ⟨h, hsuffix, hiff, List.mem_singleton_self _, hscoped,
    (hcalls ⟨"call.go", [escapedCall], []⟩ escapedCall (List.mem_singleton_self _) rfl hscoped).mpr
      hends⟩

end ParsedSymbol
end StaticCalls
