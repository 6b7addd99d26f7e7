import StaticCalls.Wire.Varint
import Mathlib.Algebra.Order.Group.Nat

/-! Numbers of variable length, written and read again. A reader of `k` octets takes back exactly the
numbers below `128 ^ k`, so that ten octets are enough for all numbers of 64 bits, and these for the
two's complement of all numbers of 32. -/
namespace StaticCalls.Wire.Varint
variable {groups n bound : Nat} {rest : List UInt8}

theorem write_ne_nil (n : Nat) : write n ≠ [] := by
  rw [write]
  split <;> exact List.cons_ne_nil _ _

theorem readGroups_last (hlast : n < 128) :
    readGroups (groups + 1) (write n ++ rest) = some (n, rest) := by
  have hoctet : (UInt8.ofNat n).toNat = n :=
    UInt8.toNat_ofNat_of_lt' (Nat.lt_trans hlast (by decide))
  have hlt : UInt8.ofNat n < 128 := by rwa [UInt8.lt_iff_toNat_lt, hoctet]
  rw [write, if_pos hlast, List.singleton_append, readGroups, if_pos hlt, hoctet]

theorem readGroups_more (hmore : 128 ≤ n) : readGroups (groups + 1) (write n ++ rest) =
    (readGroups groups (write (n / 128) ++ rest)).map fun (q, rest) => (q * 128 + n % 128, rest) := by
  have hoctet : (UInt8.ofNat (n % 128 + 128)).toNat = n % 128 + 128 :=
    UInt8.toNat_ofNat_of_lt' (by show n % 128 + 128 < 256; omega)
  have hnot : ¬ UInt8.ofNat (n % 128 + 128) < 128 := by
    rw [UInt8.lt_iff_toNat_lt, hoctet]
    exact Nat.not_lt.mpr (Nat.le_add_left _ _)
  rw [write, if_neg (Nat.not_lt.mpr hmore), List.cons_append, readGroups, if_neg hnot, hoctet,
    Nat.add_sub_cancel]

/-- Each octet of the reader is good for one group of seven bits. -/
theorem readGroups_write (groups n : Nat) (rest : List UInt8) :
    readGroups (groups + 1) (write n ++ rest) =
      if n < 128 ^ (groups + 1) then some (n, rest) else none := by
  induction groups generalizing n with
  | zero =>
    rw [Nat.zero_add, Nat.pow_one]
    by_cases hlast : n < 128
    · rw [readGroups_last hlast, if_pos hlast]
    · rw [readGroups_more (Nat.not_lt.mp hlast), if_neg hlast]
      rfl
  | succ groups ih =>
    by_cases hlast : n < 128
    · have hpow : n < 128 ^ (groups + 1 + 1) := Nat.lt_of_lt_of_le hlast (Nat.le_pow (by omega))
      rw [readGroups_last hlast, if_pos hpow]
    · have hquotient : n / 128 < 128 ^ (groups + 1) ↔ n < 128 ^ (groups + 1 + 1) := by
        rw [Nat.div_lt_iff_lt_mul (by decide), ← Nat.pow_succ]
      rw [readGroups_more (Nat.not_lt.mp hlast), ih]
      simp only [hquotient]
      split
      · rw [Option.map_some, Nat.div_add_mod']
      · rfl

theorem readBelow_write (hbound : bound ≤ 128 ^ 10) (n : Nat) (rest : List UInt8) :
    readBelow bound (write n ++ rest) = if n < bound then some (n, rest) else none := by
  rw [readBelow, readGroups_write 9]
  by_cases hn : n < bound
  · simp only [Nat.lt_of_lt_of_le hn hbound, hn, if_true]
  · rw [if_neg hn]
    split
    next h =>
      split at h
      · cases h
        exact if_neg hn
      · cases h
    next => rfl

theorem read64_write (n : Nat) (rest : List UInt8) :
    read64 (write n ++ rest) = if n < UInt64.size then some (n, rest) else none :=
  readBelow_write (by decide) n rest

theorem read32_write (n : Nat) (rest : List UInt8) :
    read32 (write n ++ rest) = if n < UInt32.size then some (n, rest) else none :=
  readBelow_write (by decide) n rest

/-! ### Lists of numbers -/

theorem readAll_write_append (hn : n < UInt64.size) (rest : List UInt8) :
    readAll (write n ++ rest) = (readAll rest).map (n :: ·) := by
  have hread := read64_write n rest
  rw [if_pos hn] at hread
  cases hoctets : write n ++ rest with
  | nil => exact absurd (List.append_eq_nil_iff.mp hoctets).1 (write_ne_nil n)
  | cons b l =>
    rw [hoctets] at hread
    rw [readAll]
    split
    next n' rest' h =>
      rw [hread] at h
      cases h
      rfl
    next h =>
      rw [hread] at h
      cases h

theorem readAll_flatMap_write {l : List Nat} (hl : ∀ n ∈ l, n < UInt64.size) :
    readAll (l.flatMap write) = some l := by
  induction l with
  | nil => rw [List.flatMap_nil, readAll]
  | cons n rest ih =>
    rw [List.forall_mem_cons] at hl
    rw [List.flatMap_cons, readAll_write_append hl.1, ih hl.2]
    rfl

/-! ### Two's complement -/

theorem ofInt32_lt (v : Int32) : ofInt32 v < UInt64.size := by
  have hlt := Int.emod_lt_of_pos v.toInt (b := UInt64.size) (by decide)
  have hle := Int.emod_nonneg v.toInt (b := UInt64.size) (by decide)
  rw [ofInt32]
  omega

/-- A negative number is told by the upper half of the 64 bits. -/
theorem toInt32?_ofInt32 (v : Int32) : toInt32? (ofInt32 v) = some v := by
  have hlow : -2 ^ 31 ≤ v.toInt := v.minValue_le_toInt
  have hhigh : v.toInt < 2 ^ 31 := v.toInt_lt
  have hvalue : (if ofInt32 v < UInt64.size / 2 then (ofInt32 v : Int)
      else ofInt32 v - UInt64.size) = v.toInt := by
    have hsize : UInt64.size = 2 ^ 64 := rfl
    rw [ofInt32, hsize]
    split <;> omega
  rw [toInt32?]
  simp only [hvalue]
  rw [if_pos, Int32.ofInt_toInt]
  rw [Bool.and_eq_true, decide_eq_true_eq, decide_eq_true_eq]
  exact ⟨hlow, Int.le_of_lt_add_one hhigh⟩

end StaticCalls.Wire.Varint
