import Mathlib.Data.List.Forall2

/-! Computations that may fail, taken apart: one that succeeds has succeeded in all its parts, and a
traversal that fails does so with the first error. -/
namespace StaticCalls
variable {α β ε : Type}

theorem bind_eq_ok_iff {x : Except ε α} {f : α → Except ε β} {b : β} :
    x >>= f = .ok b ↔ ∃ a, x = .ok a ∧ f a = .ok b := by
  constructor
  · intro h
    cases x with
    | error e => cases h
    | ok a => exact ⟨a, rfl, h⟩
  · rintro ⟨a, rfl, h⟩
    exact h

theorem exists_eq_ok_of_bind {x : Except ε α} {f : α → Except ε β} {b : β} (h : x >>= f = .ok b) :
    ∃ a, x = .ok a := by
  obtain ⟨a, ha, _⟩ := bind_eq_ok_iff.mp h
  exact ⟨a, ha⟩

theorem bind_eq_error_iff {x : Except ε α} {f : α → Except ε β} {e : ε} :
    x >>= f = .error e ↔ x = .error e ∨ ∃ a, x = .ok a ∧ f a = .error e := by
  cases x with
  | error e' => simp [bind, Except.bind]
  | ok a => simp [bind, Except.bind]

theorem map_eq_ok_iff {x : Except ε α} {f : α → β} {b : β} :
    x.map f = .ok b ↔ ∃ a, x = .ok a ∧ f a = b := by
  cases x with
  | error e => simp [Except.map]
  | ok a => simp [Except.map]

theorem toOption_eq_some_iff {x : Except ε α} {a : α} : x.toOption = some a ↔ x = .ok a := by
  cases x with
  | error e => simp [Except.toOption]
  | ok a => simp [Except.toOption]

/-- The error of a computation that fails. -/
def errorOf? : Except ε α → Option ε
  | .ok _ => none
  | .error e => some e

theorem errorOf?_eq_some_iff {x : Except ε α} {e : ε} : errorOf? x = some e ↔ x = .error e := by
  cases x with
  | error e' => simp [errorOf?]
  | ok a => simp [errorOf?]

theorem errorOf?_eq_none_iff {x : Except ε α} : errorOf? x = none ↔ ∃ a, x = .ok a := by
  cases x with
  | error e => simp [errorOf?]
  | ok a => simp [errorOf?]

theorem errorOf?_map (f : α → β) (x : Except ε α) : errorOf? (f <$> x) = errorOf? x := by
  cases x <;> rfl

theorem errorOf?_mapError {ε' : Type} (f : ε → ε') (x : Except ε α) :
    errorOf? (x.mapError f) = (errorOf? x).map f := by
  cases x <;> rfl

/-! ### Traversals -/

/-- A list fails with the first error of its elements. -/
theorem errorOf?_mapM (f : α → Except ε β) (l : List α) :
    errorOf? (l.mapM f) = l.findSome? fun a => errorOf? (f a) := by
  induction l with
  | nil => rfl
  | cons a rest ih =>
    rw [List.mapM_cons, List.findSome?_cons]
    cases hfirst : f a with
    | error e => rfl
    | ok b => exact (errorOf?_map (b :: ·) (rest.mapM f)).trans ih

theorem mapM_eq_ok_iff {f : α → Except ε β} {l : List α} {bs : List β} :
    l.mapM f = .ok bs ↔ List.Forall₂ (fun a b => f a = .ok b) l bs := by
  induction l generalizing bs with
  | nil =>
    rw [List.forall₂_nil_left_iff]
    exact ⟨fun h => by cases h; rfl, fun h => by rw [h]; rfl⟩
  | cons a rest ih =>
    rw [List.mapM_cons, bind_eq_ok_iff, List.forall₂_cons_left_iff]
    simp only [bind_eq_ok_iff, ih, pure, Except.pure, Except.ok.injEq]
    constructor
    · rintro ⟨b, hb, bs', hrest, rfl⟩
      exact ⟨b, bs', hb, hrest, rfl⟩
    · rintro ⟨b, bs', hb, hrest, rfl⟩
      exact ⟨b, hb, bs', hrest, rfl⟩

theorem exists_mapM_ok {f : α → Except ε β} {l : List α} (h : ∀ a ∈ l, ∃ b, f a = .ok b) :
    ∃ bs, l.mapM f = .ok bs := by
  simp only [mapM_eq_ok_iff]
  induction l with
  | nil => exact ⟨[], .nil⟩
  | cons a rest ih =>
    rw [List.forall_mem_cons] at h
    obtain ⟨b, hb⟩ := h.1
    obtain ⟨bs, hbs⟩ := ih h.2
    exact ⟨b :: bs, .cons hb hbs⟩

/-- Where each element goes through, the list does. -/
theorem mapM_eq_pure_map {m : Type → Type} [Monad m] [LawfulMonad m] {f : α → m β} {g : α → β}
    {l : List α} (h : ∀ a ∈ l, f a = pure (g a)) : l.mapM f = pure (l.map g) := by
  induction l with
  | nil => exact List.mapM_nil
  | cons a rest ih =>
    rw [List.forall_mem_cons] at h
    rw [List.mapM_cons, h.1, ih h.2, pure_bind, pure_bind, List.map_cons]

/-! ### Folds -/

/-- Induction along a fold that succeeds, from its last step on. -/
theorem foldlM_ok_chain {f : β → α → Except ε β} {R : List α → β → β → Prop} (hnil : ∀ b, R [] b b)
    (hcons : ∀ a rest b b' r, f b a = .ok b' → R rest b' r → R (a :: rest) b r)
    {l : List α} {b r : β} (h : l.foldlM f b = .ok r) : R l b r := by
  induction l generalizing b with
  | nil =>
    cases h
    exact hnil r
  | cons a rest ih =>
    rw [List.foldlM_cons, bind_eq_ok_iff] at h
    obtain ⟨b', hfirst, hrest⟩ := h
    exact hcons a rest b b' r hfirst (ih hrest)

/-- An invariant of a step holds at the end of every fold that succeeds. -/
theorem foldlM_ok_induction {f : β → α → Except ε β} {P : β → Prop} {l : List α}
    {b r : β} (hstep : ∀ a ∈ l, ∀ b b', P b → f b a = .ok b' → P b') (hb : P b)
    (h : l.foldlM f b = .ok r) : P r := by
  refine foldlM_ok_chain (R := fun l b r =>
    (∀ a ∈ l, ∀ b b', P b → f b a = .ok b' → P b') → P b → P r) ?_ ?_ h hstep hb
  · intro b _ hb
    exact hb
  · intro a rest b b' r hfirst ih hstep hb
    rw [List.forall_mem_cons] at hstep
    exact ih hstep.2 (hstep.1 b b' hb hfirst)

/-- A fold that fails goes through up to some element, and fails there. -/
theorem exists_of_foldlM_error {f : β → α → Except ε β} {l : List α} {b : β} {e : ε}
    (h : l.foldlM f b = .error e) : ∃ before a after b', l = before ++ a :: after ∧
      before.foldlM f b = .ok b' ∧ f b' a = .error e := by
  induction l generalizing b with
  | nil => cases h
  | cons a rest ih =>
    rw [List.foldlM_cons] at h
    cases hfirst : f b a with
    | error e' =>
      rw [hfirst] at h
      cases h
      exact ⟨[], a, rest, b, rfl, rfl, hfirst⟩
    | ok b' =>
      rw [hfirst] at h
      obtain ⟨before, a', after, b'', rfl, hbefore, hfail⟩ := ih h
      refine ⟨a :: before, a', after, b'', rfl, ?_, hfail⟩
      rw [List.foldlM_cons, hfirst]
      exact hbefore

/-- A fold over mapped elements from a mapped start, where each step goes along with the maps. -/
theorem foldlM_map_of_comm {α' β' : Type} {f : β → α → Except ε β} {f' : β' → α' → Except ε β'}
    {g : α → α'} {h : β → β'} (hstep : ∀ b a, f' (h b) (g a) = (f b a).map h) (l : List α) (b : β) :
    (l.map g).foldlM f' (h b) = (l.foldlM f b).map h := by
  induction l generalizing b with
  | nil => rfl
  | cons a rest ih =>
    rw [List.map_cons, List.foldlM_cons, List.foldlM_cons, hstep]
    cases hfirst : f b a with
    | error e => rfl
    | ok b' => exact ih b'

end StaticCalls
