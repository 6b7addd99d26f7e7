import Mathlib.Data.List.Basic

/-! The octets of a text, character by character. ASCII characters are single octets, and no octet
of another character is one of them. -/
namespace StaticCalls

theorem toList_loop_eq (b : ByteArray) (i : Nat) (acc : List UInt8) :
    ByteArray.toList.loop b i acc = acc.reverse ++ b.data.toList.drop i := by
  fun_induction ByteArray.toList.loop b i acc with
  | case1 i acc h ih =>
    have hi : i < b.data.toList.length := by simpa using h
    have hget : b.get! i = b.data.toList[i] := by
      rw [Array.getElem_toList]
      exact getElem!_pos b.data i h
    rw [ih, List.drop_eq_getElem_cons hi, hget, List.reverse_cons, List.append_assoc]
    rfl
  | case2 i acc h =>
    rw [List.drop_eq_nil_of_le (by simpa using h), List.append_nil]

theorem toList_eq_data (b : ByteArray) : b.toList = b.data.toList := toList_loop_eq b 0 []

/-- The octets of some characters. -/
def octets (l : List Char) : List UInt8 := l.flatMap String.utf8EncodeChar

@[simp] theorem octets_nil : octets [] = [] := rfl

@[simp] theorem octets_cons (c : Char) (l : List Char) :
    octets (c :: l) = String.utf8EncodeChar c ++ octets l := List.flatMap_cons

@[simp] theorem octets_append (l l' : List Char) : octets (l ++ l') = octets l ++ octets l' :=
  List.flatMap_append

theorem toList_toUTF8 (s : String) : s.toUTF8.toList = octets s.toList := by
  rw [String.toUTF8, ← String.utf8Encode_toList, List.utf8Encode, toList_eq_data,
    List.toList_data_toByteArray]
  rfl

theorem fromUTF8?_octets (s : String) :
    String.fromUTF8? (octets s.toList).toByteArray = some s := by
  have hbytes : (octets s.toList).toByteArray = s.toByteArray := String.utf8Encode_toList
  rw [hbytes, String.fromUTF8?, dif_pos s.isValidUTF8]
  rfl

/-- An ASCII character is its own octet. -/
theorem utf8EncodeChar_of_lt {c : Char} (h : c.toNat < 128) :
    String.utf8EncodeChar c = [UInt8.ofNat c.toNat] := by
  have hle : c.val.toNat ≤ 127 := Nat.le_of_lt_succ h
  rw [String.utf8EncodeChar]
  simp only [hle, if_true]
  rfl

/-- The octets of all other characters lie beyond ASCII. -/
theorem le_of_mem_utf8EncodeChar {c : Char} (h : ¬ c.toNat < 128) :
    ∀ b ∈ String.utf8EncodeChar c, 128 ≤ b.toNat := by
  have hnot : ¬ c.val.toNat ≤ 127 := fun hle => h (Nat.lt_succ_of_le hle)
  have hlarge {n k : Nat} (hk : 128 ≤ k) (hn : n + k < 256) :
      128 ≤ (UInt8.ofNat (n + k)).toNat := by
    rw [UInt8.toNat_ofNat', Nat.mod_eq_of_lt hn]
    omega
  rw [String.utf8EncodeChar]
  simp only [hnot, if_false]
  split
  · rw [List.forall_mem_cons, List.forall_mem_singleton]
    exact ⟨hlarge (by decide) (by omega), hlarge (by decide) (by omega)⟩
  split
  · rw [List.forall_mem_cons, List.forall_mem_cons, List.forall_mem_singleton]
    exact ⟨hlarge (by decide) (by omega), hlarge (by decide) (by omega),
      hlarge (by decide) (by omega)⟩
  · rw [List.forall_mem_cons, List.forall_mem_cons, List.forall_mem_cons,
      List.forall_mem_singleton]
    exact ⟨hlarge (by decide) (by omega), hlarge (by decide) (by omega),
      hlarge (by decide) (by omega), hlarge (by decide) (by omega)⟩

end StaticCalls
