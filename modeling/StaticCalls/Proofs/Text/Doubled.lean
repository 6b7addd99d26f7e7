import StaticCalls.Text.Doubled

/-! Writing a text up to its closing mark. Reading takes exactly what is written this way, and the
mark that closes is the one that no second mark follows (`readDoubled_eq_some_iff`). -/
namespace StaticCalls.Text
variable {mark : Char} {cs text rest : List Char}

/-- The text with every mark in it written twice. -/
def doubled (mark : Char) : List Char → List Char
  | [] => []
  | c :: text => if c = mark then mark :: mark :: doubled mark text else c :: doubled mark text

@[simp] theorem doubled_cons_self (mark : Char) (text : List Char) :
    doubled mark (mark :: text) = mark :: mark :: doubled mark text :=
  if_pos rfl

theorem doubled_cons_of_ne {c : Char} (h : c ≠ mark) (text : List Char) :
    doubled mark (c :: text) = c :: doubled mark text :=
  if_neg h

@[simp] theorem head?_doubled (mark : Char) (text : List Char) :
    (doubled mark text).head? = text.head? := by
  cases text with
  | nil => rfl
  | cons c text =>
    by_cases h : c = mark
    · rw [h, doubled_cons_self]
      rfl
    · rw [doubled_cons_of_ne h]
      rfl

theorem doubled_append (mark : Char) (text more : List Char) :
    doubled mark (text ++ more) = doubled mark text ++ doubled mark more := by
  induction text with
  | nil => rfl
  | cons c text ih =>
    by_cases h : c = mark
    · rw [h, List.cons_append, doubled_cons_self, doubled_cons_self, ih]
      rfl
    · rw [List.cons_append, doubled_cons_of_ne h, doubled_cons_of_ne h, ih]
      rfl

theorem length_le_length_doubled (mark : Char) (text : List Char) :
    text.length ≤ (doubled mark text).length := by
  induction text with
  | nil => exact Nat.le_refl _
  | cons c text ih =>
    rw [doubled]
    split <;> simp only [List.length_cons] <;> omega

theorem eq_doubled_of_readDoubled (h : readDoubled mark cs = some (text, rest)) :
    cs = doubled mark text ++ mark :: rest ∧ rest.head? ≠ some mark := by
  fun_induction readDoubled mark cs generalizing text with
  | case1 => cases h
  | case2 =>
    cases h
    exact ⟨rfl, by simp⟩
  | case3 => cases h
  | case4 cs ih =>
    obtain ⟨⟨text', rest'⟩, hread, heq⟩ := Option.map_eq_some_iff.mp h
    cases heq
    obtain ⟨rfl, hrest⟩ := ih hread
    exact ⟨by rw [doubled_cons_self]; rfl, hrest⟩
  | case5 d cs hne =>
    cases h
    exact ⟨rfl, by simpa using hne⟩
  | case6 c d cs hne ih =>
    obtain ⟨⟨text', rest'⟩, hread, heq⟩ := Option.map_eq_some_iff.mp h
    cases heq
    obtain ⟨hcs, hrest⟩ := ih hread
    exact ⟨by rw [doubled_cons_of_ne hne, hcs]; rfl, hrest⟩

theorem readDoubled_cons_of_ne {c : Char} (hne : c ≠ mark) (hcs : cs ≠ []) :
    readDoubled mark (c :: cs) =
      (readDoubled mark cs).map fun (text, rest) => (c :: text, rest) := by
  cases cs with
  | nil => exact absurd rfl hcs
  | cons d cs => rw [readDoubled, if_neg hne]

theorem readDoubled_doubled (text : List Char) (hrest : rest.head? ≠ some mark) :
    readDoubled mark (doubled mark text ++ mark :: rest) = some (text, rest) := by
  induction text with
  | nil =>
    cases rest with
    | nil => exact if_pos rfl
    | cons d rest =>
      have hne : d ≠ mark := by simpa using hrest
      show readDoubled mark (mark :: d :: rest) = _
      rw [readDoubled, if_pos rfl, if_neg hne]
  | cons c text ih =>
    by_cases h : c = mark
    · rw [h, doubled_cons_self, List.cons_append, List.cons_append, readDoubled, if_pos rfl,
        if_pos rfl, ih]
      rfl
    · rw [doubled_cons_of_ne h, List.cons_append, readDoubled_cons_of_ne h (by simp), ih]
      rfl

theorem readDoubled_eq_some_iff : readDoubled mark cs = some (text, rest) ↔
    cs = doubled mark text ++ mark :: rest ∧ rest.head? ≠ some mark := by
  constructor
  · exact eq_doubled_of_readDoubled
  · rintro ⟨rfl, hrest⟩
    exact readDoubled_doubled text hrest

/-- Where no mark closes the text, all of it is text. -/
theorem exists_eq_doubled_of_readDoubled (h : readDoubled mark cs = none) :
    ∃ text, cs = doubled mark text := by
  fun_induction readDoubled mark cs with
  | case1 => exact ⟨[], rfl⟩
  | case2 => cases h
  | case3 c hne => exact ⟨[c], (doubled_cons_of_ne hne []).symm⟩
  | case4 cs ih =>
    obtain ⟨text, rfl⟩ := ih (Option.map_eq_none_iff.mp h)
    exact ⟨mark :: text, (doubled_cons_self mark text).symm⟩
  | case5 => cases h
  | case6 c d cs hne ih =>
    obtain ⟨text, htext⟩ := ih (Option.map_eq_none_iff.mp h)
    exact ⟨c :: text, by rw [doubled_cons_of_ne hne, htext]⟩

end StaticCalls.Text
