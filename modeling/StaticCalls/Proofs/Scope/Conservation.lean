import StaticCalls.Proofs.Scope.Merge
import StaticCalls.Proofs.Scope.Placements
import Mathlib.Algebra.GroupWithZero.Nat

/-! What a merge of scopes that succeeds holds. A body that takes the place of another one takes the
place of an empty one, so that the merge has all references that the documents record, and has them
as often (`recorded_perm_of_ofPartitions`). -/
namespace StaticCalls
open scoped List

namespace ScopeResolution
variable {d : DocumentScopes} {r r' r'' : ScopeResolution} {symbol : String}

/-- The references that are recorded in the body of some symbol. -/
def recorded (r : ScopeResolution) : List Mention := r.enclosed.values.flatten

/-- What `r'` has on top of `r`. -/
structure Gains (keys : List String) (references : List Mention) (unscoped : Nat)
    (r r' : ScopeResolution) : Prop where
  contains : ∀ symbol, r'.enclosed.contains symbol ↔ symbol ∈ keys ∨ r.enclosed.contains symbol
  recorded : r'.recorded ~ references ++ r.recorded
  unscoped : r'.unscoped = unscoped + r.unscoped

theorem gains_nothing (r : ScopeResolution) : Gains [] [] 0 r r where
  contains _ := by simp
  recorded := .refl _
  unscoped := (Nat.zero_add _).symm

theorem Gains.trans {keys keys' : List String} {references references' : List Mention}
    {unscoped unscoped' : Nat} (h : Gains keys references unscoped r r')
    (h' : Gains keys' references' unscoped' r' r'') :
    Gains (keys ++ keys') (references ++ references') (unscoped + unscoped') r r'' where
  contains symbol := by rw [h'.contains, h.contains, List.mem_append, or_assoc, or_left_comm]
  recorded :=
    calc r''.recorded
        ~ references' ++ (references ++ r.recorded) := h'.recorded.trans (h.recorded.append_left _)
      _ ~ (references ++ references') ++ r.recorded := by
        rw [List.append_assoc]
        exact List.perm_append_comm_assoc _ _ _
  unscoped := by rw [h'.unscoped, h.unscoped, Nat.add_left_comm, Nat.add_assoc]

/-- An entry is passed over or put in, and it is put in only where no references are lost and where
it brings some or is the first one. -/
theorem addEntry_eq_ok {references : List Mention} (h : r.addEntry d symbol references = .ok r') :
    references = [] ∧ r.enclosed.contains symbol ∧ r' = r ∨
      r.enclosed.getD symbol [] = [] ∧ (references = [] → r.enclosed.get? symbol = none) ∧
        r' = r.track symbol references (d.definitions.get? symbol) := by
  unfold addEntry at h
  by_cases hempty : references.isEmpty
  · have hnil : references = [] := List.isEmpty_iff.mp hempty
    by_cases hcontains : r.enclosed.contains symbol
    · simp only [hempty, hcontains, if_true] at h
      cases h
      exact .inl ⟨hnil, hcontains, rfl⟩
    · simp only [hempty, hcontains, if_true] at h
      cases h
      rw [StringMap.contains, Option.not_isSome_iff_eq_none] at hcontains
      exact .inr ⟨by rw [StringMap.getD, hcontains]; rfl, fun _ => hcontains, by rw [hnil]⟩
  · by_cases hpopulated : r.isPopulated symbol
    · simp [hempty, hpopulated] at h
    · simp only [hempty, hpopulated] at h
      cases h
      refine .inr ⟨by simpa [isPopulated] using hpopulated, fun hnil => ?_, rfl⟩
      exact absurd (List.isEmpty_iff.mpr hnil) hempty

theorem gains_addEntry {references : List Mention}
    (h : r.addEntry d symbol references = .ok r') : Gains [symbol] references 0 r r' := by
  rcases addEntry_eq_ok h with ⟨rfl, hcontains, rfl⟩ | ⟨hnone, _, rfl⟩
  · refine ⟨fun other => ?_, .refl _, (Nat.zero_add _).symm⟩
    rw [List.mem_singleton]
    constructor
    · exact .inr
    · rintro (rfl | hin)
      · exact hcontains
      · exact hin
  · refine ⟨fun other => ?_, ?_, (Nat.zero_add _).symm⟩
    · simp only [track, StringMap.contains, StringMap.get?_insert, List.mem_singleton]
      by_cases heq : symbol = other
      · simp [heq]
      · simp [heq, Ne.symm heq]
    · have hinsert := r.enclosed.flatten_values_insert symbol references
      rw [hnone, List.append_nil] at hinsert
      exact hinsert

theorem gains_addDocument (h : r.addDocument d = .ok r') :
    Gains d.enclosed.keys d.enclosed.values.flatten d.unscoped r r' := by
  have hentries : Gains d.enclosed.keys d.enclosed.values.flatten 0
      { r with unscoped := r.unscoped + d.unscoped } r' := by
    refine foldlM_ok_chain
      (R := fun entries => Gains (entries.map Prod.fst) (entries.map Prod.snd).flatten 0)
      gains_nothing ?_ h
    intro e rest r₁ r₂ r₃ hstep hrest
    exact (gains_addEntry hstep).trans hrest
  refine ⟨hentries.contains, hentries.recorded, ?_⟩
  rw [hentries.unscoped, Nat.zero_add, Nat.add_comm]

theorem gains_merge {scopes : List DocumentScopes} (h : merge scopes = .ok r) :
    Gains (scopes.flatMap fun d => d.enclosed.keys)
      (scopes.flatMap fun d => d.enclosed.values.flatten) (scopes.map DocumentScopes.unscoped).sum
      empty r := by
  refine foldlM_ok_chain (R := fun scopes => Gains (scopes.flatMap fun d => d.enclosed.keys)
    (scopes.flatMap fun d => d.enclosed.values.flatten)
    (scopes.map DocumentScopes.unscoped).sum) gains_nothing ?_ h
  intro d rest r₁ r₂ r₃ hstep hrest
  exact (gains_addDocument hstep).trans hrest

variable {partitions : List Partition}

theorem contains_ofPartitions_iff (h : ofPartitions partitions = .ok r) :
    r.enclosed.contains symbol ↔ ∃ p ∈ partitions, ∃ b, p.HasBody b ∧ b.symbol = symbol := by
  have hempty : ¬ empty.enclosed.contains symbol := by simp [empty, StringMap.contains]
  rw [ofPartitions_eq] at h
  rw [(gains_merge h).contains, or_iff_left hempty]
  simp only [List.flatMap_map, List.mem_flatMap, StringMap.mem_keys_iff,
    Partition.contains_enclosed_iff]

/-- The merge loses none of the recorded references and repeats none. -/
theorem recorded_perm_of_ofPartitions (h : ofPartitions partitions = .ok r) :
    r.recorded ~ partitions.flatMap fun p => p.resolve.enclosed.values.flatten := by
  rw [ofPartitions_eq] at h
  have hgains := (gains_merge h).recorded
  rw [List.flatMap_map] at hgains
  simpa [recorded, empty, StringMap.values, StringMap.empty] using hgains

theorem unscoped_ofPartitions (h : ofPartitions partitions = .ok r) :
    r.unscoped = (partitions.flatMap Partition.unscopedReferences).length := by
  rw [ofPartitions_eq] at h
  rw [(gains_merge h).unscoped, List.map_map, List.length_flatMap]
  exact congrArg List.sum (List.map_congr_left fun p _ => p.unscoped_resolve)

end ScopeResolution
end StaticCalls
