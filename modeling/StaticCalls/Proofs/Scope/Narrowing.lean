import StaticCalls.Proofs.Scope.Standing

/-! Scopes of a document with some of its references left out. The sweep then comes to fewer
references and closes bodies later, but as long as no reference straddles the end of a body the
others stay where they are, in their order (`get?_enclosed_narrowed`). -/
namespace StaticCalls

section Sorting
variable {α : Type} {le : α → α → Bool} {keep : α → Bool}

/-- A list can be cut in one way only where a property stops. -/
theorem eq_of_append_eq_of_stops {stops : α → Bool} {l₁ l₂ m₁ m₂ : List α}
    (h : l₁ ++ l₂ = m₁ ++ m₂) (hl₁ : ∀ a ∈ l₁, ¬ stops a) (hl₂ : ∀ a ∈ l₂, stops a)
    (hm₁ : ∀ a ∈ m₁, ¬ stops a) (hm₂ : ∀ a ∈ m₂, stops a) : l₁ = m₁ ∧ l₂ = m₂ := by
  have hstop := congrArg (List.filter stops) h
  rw [List.filter_append, List.filter_append, List.filter_eq_nil_iff.mpr hl₁,
    List.filter_eq_nil_iff.mpr hm₁, List.filter_eq_self.mpr hl₂, List.filter_eq_self.mpr hm₂,
    List.nil_append, List.nil_append] at hstop
  subst hstop
  exact ⟨List.append_cancel_right h, rfl⟩

/-- Sorting is stable, so it does not matter whether elements are left out before or after it. -/
theorem mergeSort_filter (htrans : ∀ a b c, le a b → le b c → le a c)
    (htotal : ∀ a b, le a b || le b a) (l : List α) :
    (l.filter keep).mergeSort le = (l.mergeSort le).filter keep := by
  induction l with
  | nil => rw [List.filter_nil, List.mergeSort_nil, List.filter_nil]
  | cons a rest ih =>
    obtain ⟨l₁, l₂, hsorted, hrest, hbefore⟩ := List.mergeSort_cons htrans htotal a rest
    by_cases ha : keep a
    · rw [List.filter_cons_of_pos ha]
      obtain ⟨m₁, m₂, hsorted', hrest', hbefore'⟩ :=
        List.mergeSort_cons htrans htotal a (rest.filter keep)
      -- both lists are cut where `a` stops to come after the elements
      have hafter {front back whole : List α} (h : whole.mergeSort le = front ++ a :: back) :
          ∀ b ∈ back, le a b := by
        have hpairwise := List.pairwise_mergeSort htrans htotal whole
        rw [h, List.pairwise_append, List.pairwise_cons] at hpairwise
        exact hpairwise.2.1.1
      have hcut : m₁ ++ m₂ = l₁.filter keep ++ l₂.filter keep := by
        rw [← hrest', ih, hrest, List.filter_append]
      obtain ⟨rfl, rfl⟩ := eq_of_append_eq_of_stops hcut
        (fun b hb => by simpa using hbefore' b hb) (hafter hsorted')
        (fun b hb => by simpa using hbefore b (List.mem_of_mem_filter hb))
        (fun b hb => hafter hsorted b (List.mem_of_mem_filter hb))
      rw [hsorted', hsorted, List.filter_append, List.filter_cons_of_pos ha]
    · rw [List.filter_cons_of_neg ha, ih, hsorted, hrest, List.filter_append, List.filter_append,
        List.filter_cons_of_neg ha]

end Sorting

namespace OwnedCalls

/-- The body with only those references that pass the test. -/
def narrowed (keep : Mention → Bool) (b : OwnedCalls) : OwnedCalls :=
  { b with references := b.references.filter keep }

/-- Of one body at most it does not matter whether it stands before or after it is narrowed. -/
theorem standing_map_narrowed {bodies : List OwnedCalls} (h : bodies.length ≤ 1)
    (keep : Mention → Bool) :
    standing (bodies.map (narrowed keep)) = (standing bodies).map (narrowed keep) := by
  have hsingle : ∀ b : OwnedCalls, standing [b] = some b := by
    intro b
    by_cases hb : b.isPopulated <;> simp [standing, hb]
  rcases bodies with _ | ⟨b, _ | ⟨b', rest⟩⟩
  · rfl
  · rw [List.map_cons, List.map_nil, hsingle, hsingle, Option.map_some]
  · simp at h

end OwnedCalls

namespace Partition
variable {p : Partition} {keep : Mention → Bool}

/-- The partition with only those references that pass the test. -/
def narrowed (p : Partition) (keep : Mention → Bool) : Partition :=
  { p with references := p.references.filter keep }

theorem Tidy.narrowed (h : p.Tidy) (keep : Mention → Bool) : (p.narrowed keep).Tidy where
  wellFormed m hm := h.wellFormed m (List.mem_of_mem_filter hm)
  unstraddled m hm := h.unstraddled m (List.mem_of_mem_filter hm)

theorem sortedReferences_narrowed :
    (p.narrowed keep).sortedReferences = p.sortedReferences.filter keep :=
  mergeSort_filter (fun _ _ _ => Std.TransCmp.isLE_trans) isLE_or_isLE p.references

/-- The references that are kept are placed as if the others were still there. -/
theorem placements_narrowed (h : p.Tidy) :
    (p.narrowed keep).placements = p.placements.filter fun placed => keep placed.1 := by
  rw [placements_eq h, placements_eq (h.narrowed keep), sortedReferences_narrowed, List.filter_map]
  rfl

theorem placedUnder_narrowed (h : p.Tidy) (owner : Option String) :
    placedUnder owner (p.narrowed keep).placements =
      (placedUnder owner p.placements).filter keep := by
  rw [placements_narrowed h, placedUnder, placedUnder, List.filter_filter, List.filter_map,
    List.filter_filter]
  congr 2
  funext placed
  exact Bool.and_comm _ _

theorem get?_enclosed_narrowed (h : p.Tidy) (symbol : String) :
    (p.narrowed keep).resolve.enclosed.get? symbol =
      (p.resolve.enclosed.get? symbol).map (List.filter keep) := by
  rw [get?_enclosed, get?_enclosed, placedUnder_narrowed h, Option.map_map]
  rfl

theorem owned?_narrowed (h : p.Tidy) (symbol : String) :
    (p.narrowed keep).resolve.owned? symbol =
      (p.resolve.owned? symbol).map (OwnedCalls.narrowed keep) := by
  rw [DocumentScopes.owned?, get?_enclosed_narrowed h, DocumentScopes.owned?]
  show ((p.resolve.enclosed.get? symbol).map _).bind (fun references =>
    (p.definitions.get? symbol).map _) = ((p.resolve.enclosed.get? symbol).bind fun references =>
    (p.definitions.get? symbol).map _).map _
  cases p.resolve.enclosed.get? symbol with
  | none => rfl
  | some references => cases p.definitions.get? symbol <;> rfl

end Partition
end StaticCalls
