import StaticCalls.Source.Range

/-! Containment of ranges in coordinates, against the order in which bodies open and the one in
which references come. A range that has been passed without containing the range at hand contains
nothing that comes later, unless the one at hand straddles its end. -/
namespace StaticCalls

namespace Position

theorem compare_eq_lt_iff {p q : Position} : compare p q = .lt ↔ p.rank < q.rank := by
  rw [compare_eq_compare_rank, Nat.compare_eq_lt]

theorem compare_eq_eq_iff {p q : Position} : compare p q = .eq ↔ p.rank = q.rank := by
  rw [compare_eq_compare_rank, Nat.compare_eq_eq]

theorem isLE_compare_iff {p q : Position} : (compare p q).isLE ↔ p.rank ≤ q.rank := by
  rw [compare_eq_compare_rank, Nat.isLE_compare]

instance : Std.TransOrd Position where
  eq_swap {p q} := by
    rw [compare_eq_compare_rank p, compare_eq_compare_rank q]
    exact Std.OrientedOrd.eq_swap
  isLE_trans {p q r} hpq hqr := by
    rw [isLE_compare_iff] at *
    exact Nat.le_trans hpq hqr

end Position

namespace SourceRange
variable {a b c q r s : SourceRange}

theorem contains_iff_rank :
    a.contains b ↔ a.start.rank ≤ b.start.rank ∧ b.stop.rank ≤ a.stop.rank := by
  simp only [contains, Bool.and_eq_true, decide_eq_true_eq, Position.le_iff_rank_le]

theorem eq_of_rank_eq (hstart : a.start.rank = b.start.rank) (hstop : a.stop.rank = b.stop.rank) :
    a = b := by
  cases a
  cases b
  simp only [mk.injEq]
  exact ⟨Position.rank_inj.mp hstart, Position.rank_inj.mp hstop⟩

theorem contains_refl (a : SourceRange) : a.contains a := by
  simp [contains_iff_rank]

theorem contains_trans (hab : a.contains b) (hbc : b.contains c) : a.contains c := by
  rw [contains_iff_rank] at *
  omega

theorem contains_antisymm (hab : a.contains b) (hba : b.contains a) : a = b := by
  rw [contains_iff_rank] at *
  apply eq_of_rank_eq <;> omega

/-- By start, and of ranges that start together the one that ends last comes first. -/
def openingOrder (a b : SourceRange) : Ordering :=
  (compare a.start b.start).then (compare b.stop a.stop)

theorem openingOrder_eq_lt_iff : a.openingOrder b = .lt ↔
    a.start.rank < b.start.rank ∨ a.start.rank = b.start.rank ∧ b.stop.rank < a.stop.rank := by
  simp [openingOrder, Ordering.then_eq_lt, Position.compare_eq_lt_iff, Position.compare_eq_eq_iff]

/-- What contains another range stands before it. -/
theorem openingOrder_lt_of_contains (hab : a.contains b) (hne : a ≠ b) :
    a.openingOrder b = .lt := by
  have hback : ¬ b.contains a := fun hba => hne (contains_antisymm hab hba)
  rw [contains_iff_rank] at hab hback
  rw [openingOrder_eq_lt_iff]
  omega

/-- The range ends where it starts or later. -/
def WellFormed (r : SourceRange) : Prop := r.start ≤ r.stop

instance : Decidable r.WellFormed := inferInstanceAs (Decidable (r.start ≤ r.stop))

/-- `q` starts within `s` and goes on past its end. -/
def Straddles (q s : SourceRange) : Prop :=
  s.start ≤ q.start ∧ q.start < s.stop ∧ s.stop < q.stop

instance : Decidable (q.Straddles s) :=
  inferInstanceAs (Decidable (s.start ≤ q.start ∧ q.start < s.stop ∧ s.stop < q.stop))

/-- In the order of references, `q` stands before `r` or beside it. -/
def NotAfter (q r : SourceRange) : Prop :=
  q.start.rank < r.start.rank ∨ q.start.rank = r.start.rank ∧ q.stop.rank ≤ r.stop.rank

theorem NotAfter.start_le (h : q.NotAfter r) : q.start.rank ≤ r.start.rank := by
  unfold NotAfter at h
  omega

/-- By start, then by end. -/
def referenceOrder (a b : SourceRange) : Ordering :=
  (compare a.start b.start).then (compare a.stop b.stop)

theorem isLE_referenceOrder_iff : (a.referenceOrder b).isLE ↔ a.NotAfter b := by
  simp [referenceOrder, NotAfter, Ordering.isLE_then_iff_or, Position.compare_eq_lt_iff,
    Position.compare_eq_eq_iff, Position.isLE_compare_iff]

/-- What closes for one reference may stay closed for all later ones. -/
theorem not_contains_of_notAfter (hopen : s.start.rank ≤ q.start.rank) (hout : ¬ s.contains q)
    (hin : ¬ q.Straddles s) (hlater : q.NotAfter r) (hr : r.WellFormed) : ¬ s.contains r := by
  intro hsr
  rw [contains_iff_rank] at hout hsr
  simp only [Straddles, Position.le_iff_rank_le, Position.lt_iff_rank_lt] at hin
  simp only [WellFormed, Position.le_iff_rank_le] at hr
  unfold NotAfter at hlater
  omega

end SourceRange
end StaticCalls
