import StaticCalls.Proofs.Scope.Innermost
import Mathlib.Order.Defs.Unbundled

/-! Containment against the two orders of the sweep. Containment is a partial order, a body opens
before the ones inside it, and what is passed without containing the range at hand may stay closed
(`contains_fits_orders`). -/
namespace StaticCalls

namespace SourceRange
variable {a b r : SourceRange}

theorem isPartialOrder_contains : IsPartialOrder SourceRange fun a b => a.contains b where
  refl := contains_refl
  trans _ _ _ := contains_trans
  antisymm _ _ := contains_antisymm

/-- `a` starts first and does not contain `b`; unless `b` straddles its end, it contains nothing
that comes with or after `b`. -/
theorem not_contains_of_referenceOrder (hstart : a.start ≤ b.start) (hout : ¬ a.contains b)
    (hin : ¬ (b.start < a.stop ∧ a.stop < b.stop)) (hr : r.WellFormed)
    (hlater : (b.referenceOrder r).isLE) : ¬ a.contains r := by
  have hstraddles : ¬ b.Straddles a := fun h => hin h.2
  exact not_contains_of_notAfter (Position.le_iff_rank_le.mp hstart) hout hstraddles
    (isLE_referenceOrder_iff.mp hlater) hr

/-- Containment of ranges, inverted ones included, orders them partially, and it fits the order in
which bodies open and the one in which references come. -/
theorem contains_fits_orders :
    IsPartialOrder SourceRange (fun a b => a.contains b) ∧
    (∀ a b : Body, a.order b =
      (a.range.openingOrder b.range).then (compare a.symbol b.symbol)) ∧
    (∀ m n : Mention, m.order n =
      (m.range.referenceOrder n.range).then (compare m.symbol n.symbol)) ∧
    (∀ a b : SourceRange, a.contains b → a ≠ b → a.openingOrder b = .lt) ∧
    ∀ a b : SourceRange, a.start ≤ b.start → ¬ a.contains b →
      ¬ (b.start < a.stop ∧ a.stop < b.stop) →
      ∀ r : SourceRange, r.WellFormed → (b.referenceOrder r).isLE → ¬ a.contains r := by
  refine ⟨isPartialOrder_contains, Body.order_eq_then, Mention.order_eq_then, ?_, ?_⟩
  · intro a b hab hne
    exact openingOrder_lt_of_contains hab hne
  · intro a b hstart hout hin r hr hlater
    exact not_contains_of_referenceOrder hstart hout hin hr hlater

/-- An empty range where another one ends opens behind it, and what touches the other one from
behind shows that nothing later lies in it. -/
theorem touching_fits_orders :
    ((ofCoordinates 1 0 4 2).contains (ofCoordinates 4 2 4 2) ∧
      ofCoordinates 1 0 4 2 ≠ ofCoordinates 4 2 4 2 ∧
      (ofCoordinates 1 0 4 2).openingOrder (ofCoordinates 4 2 4 2) = .lt) ∧
    (ofCoordinates 1 0 4 2).start ≤ (ofCoordinates 4 2 5 0).start ∧
    ¬ (ofCoordinates 1 0 4 2).contains (ofCoordinates 4 2 5 0) ∧
    ¬ ((ofCoordinates 4 2 5 0).start < (ofCoordinates 1 0 4 2).stop ∧
      (ofCoordinates 1 0 4 2).stop < (ofCoordinates 4 2 5 0).stop) ∧
    (ofCoordinates 4 2 6 0).WellFormed ∧
    ((ofCoordinates 4 2 5 0).referenceOrder (ofCoordinates 4 2 6 0)).isLE ∧
    ¬ (ofCoordinates 1 0 4 2).contains (ofCoordinates 4 2 6 0) := by
  obtain ⟨-, -, -, hopens, hcloses⟩ := contains_fits_orders
  have hin : (ofCoordinates 1 0 4 2).contains (ofCoordinates 4 2 4 2) := by decide
  have hne : ofCoordinates 1 0 4 2 ≠ ofCoordinates 4 2 4 2 := by decide
  have hstart : (ofCoordinates 1 0 4 2).start ≤ (ofCoordinates 4 2 5 0).start := by decide
  have hout : ¬ (ofCoordinates 1 0 4 2).contains (ofCoordinates 4 2 5 0) := by decide
  have hstraddles : ¬ ((ofCoordinates 4 2 5 0).start < (ofCoordinates 1 0 4 2).stop ∧
      (ofCoordinates 1 0 4 2).stop < (ofCoordinates 4 2 5 0).stop) := by decide
  have hr : (ofCoordinates 4 2 6 0).WellFormed := by decide
  have hlater : ((ofCoordinates 4 2 5 0).referenceOrder (ofCoordinates 4 2 6 0)).isLE := by decide
  exact ⟨⟨hin, hne, hopens _ _ hin hne⟩, hstart, hout, hstraddles, hr, hlater,
    hcloses _ _ hstart hout hstraddles _ hr hlater⟩

end SourceRange
end StaticCalls
