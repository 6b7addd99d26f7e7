import StaticCalls.Proofs.Wire.Varint
import StaticCalls.Wire.Field

/-! Fields, written and read again. What stands behind a field has no effect on it, so that a message
is read field by field; it is refused as a whole when the length of one of them does not fit in 64
bits (`fields?_write`). -/
namespace StaticCalls.Wire
variable {f : Field} {fs : List Field} {missing : Nat} {rest : List UInt8}

/-- What the length is announced as has all been taken. -/
theorem split_append (octets rest : List UInt8) :
    split octets.length (octets ++ rest) = (octets, 0, rest) := by
  induction octets with
  | nil => rfl
  | cons b octets ih => rw [List.length_cons, List.cons_append, split, ih]

namespace Field

/-- The field has a number that fits in a tag, and a payload that is a number of 64 bits or whole. -/
def IsPlain : Field → Prop
  | ⟨number, .varint n⟩ => 0 < number ∧ number < 2 ^ 29 ∧ n < UInt64.size
  | ⟨number, .bytes _ missing⟩ => 0 < number ∧ number < 2 ^ 29 ∧ missing = 0

/-- The length of the payload fits in 64 bits, if it is written at all. -/
def isShort : Field → Bool
  | ⟨_, .varint _⟩ => true
  | ⟨_, .bytes octets _⟩ => octets.length < UInt64.size

theorem item?_tag {number wireType : Nat} (hnumber : 0 < number) (hsize : number < 2 ^ 29)
    (htype : wireType < 8) (missing : Nat) (rest : List UInt8) :
    item? missing (tag number wireType ++ rest) = body? missing number wireType rest := by
  have htag : number * 8 + wireType < UInt32.size := by
    show number * 8 + wireType < 2 ^ 32
    omega
  have hdiv : (number * 8 + wireType) / 8 = number := by omega
  have hmod : (number * 8 + wireType) % 8 = wireType := by omega
  rw [item?, tag, Varint.read32_write, if_pos htag]
  simp only [hdiv, hmod]
  rw [if_neg (Nat.pos_iff_ne_zero.mp hnumber)]

/-- A field is read back, whatever follows, unless its length is too large. -/
theorem item?_write (h : f.IsPlain) (missing : Nat) (rest : List UInt8) :
    item? missing (f.write ++ rest) = if f.isShort then some (.field f, rest) else none := by
  obtain ⟨number, n | ⟨octets, lacking⟩⟩ := f
  · obtain ⟨hnumber, hsize, hn⟩ := h
    rw [write, List.append_assoc, item?_tag hnumber hsize (by decide), body?, Varint.read64_write,
      if_pos hn]
    rfl
  · obtain ⟨hnumber, hsize, rfl⟩ := h
    rw [write, Nat.add_zero, List.append_assoc, List.append_assoc,
      item?_tag hnumber hsize (by decide), body?, Varint.read64_write]
    by_cases hlength : octets.length < UInt64.size
    · simp only [hlength, if_true, split_append, isShort, decide_true, Nat.zero_le]
    · simp only [hlength, if_false, isShort, decide_false, Bool.false_eq_true]

theorem write_ne_nil (f : Field) : f.write ≠ [] := by
  obtain ⟨number, n | ⟨octets, lacking⟩⟩ := f <;>
    simp [write, tag, Varint.write_ne_nil]

end Field

theorem fieldsWithin?_write_append (h : f.IsPlain) (missing : Nat) (rest : List UInt8) :
    fieldsWithin? missing 0 (f.write ++ rest) =
      if f.isShort then (fieldsWithin? missing 0 rest).map (f :: ·) else none := by
  have hitem := Field.item?_write h missing rest
  cases hoctets : f.write ++ rest with
  | nil => exact absurd (List.append_eq_nil_iff.mp hoctets).1 f.write_ne_nil
  | cons b l =>
    rw [hoctets] at hitem
    by_cases hshort : f.isShort
    · rw [if_pos hshort] at hitem ⊢
      rw [fieldsWithin?, hitem]
      rfl
    · rw [if_neg hshort] at hitem ⊢
      rw [fieldsWithin?, hitem]

/-- A message is read field by field, and not at all if one of them is too long. -/
theorem fields?_write (h : ∀ f ∈ fs, f.IsPlain) (missing : Nat) :
    fields? missing (write fs) = if fs.all Field.isShort then some fs else none := by
  rw [fields?]
  induction fs with
  | nil => rw [write, List.flatMap_nil, fieldsWithin?]; rfl
  | cons f rest ih =>
    rw [List.forall_mem_cons] at h
    rw [write, List.flatMap_cons, fieldsWithin?_write_append h.1, ← write, ih h.2, List.all_cons]
    cases f.isShort
    · rfl
    · cases rest.all Field.isShort <;> rfl

/-- A field inside of a message is no longer than the message. -/
theorem isShort_of_length_write (h : (write fs).length < UInt64.size) : fs.all Field.isShort := by
  rw [List.all_eq_true]
  intro f hf
  obtain ⟨before, after, rfl⟩ := List.append_of_mem hf
  obtain ⟨number, n | ⟨octets, lacking⟩⟩ := f
  · rfl
  · simp only [write, List.flatMap_append, List.flatMap_cons, Field.write, List.length_append] at h
    exact decide_eq_true (by omega)

end StaticCalls.Wire
