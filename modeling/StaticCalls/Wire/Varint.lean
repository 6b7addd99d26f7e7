/-! Numbers of variable length: groups of seven bits, the lowest first, all but the last one with
the top bit set. -/
namespace StaticCalls.Wire

namespace Varint

def write (n : Nat) : List UInt8 :=
  if n < 128 then [UInt8.ofNat n] else UInt8.ofNat (n % 128 + 128) :: write (n / 128)
termination_by n
decreasing_by omega

/-- Reads a number of at most so many octets. -/
def readGroups : Nat → List UInt8 → Option (Nat × List UInt8)
  | 0, _ => none
  | _ + 1, [] => none
  | groups + 1, b :: rest =>
      if b < 128 then some (b.toNat, rest)
      else (readGroups groups rest).map fun (n, rest) => (n * 128 + (b.toNat - 128), rest)

theorem length_readGroups {groups n : Nat} {l rest : List UInt8}
    (h : readGroups groups l = some (n, rest)) : rest.length < l.length := by
  fun_induction readGroups groups l generalizing n <;> grind [Option.map_eq_some_iff]

/-- A number below `bound`, in at most ten octets. -/
def readBelow (bound : Nat) (l : List UInt8) : Option (Nat × List UInt8) :=
  match readGroups 10 l with
  | some (n, rest) => if n < bound then some (n, rest) else none
  | none => none

theorem length_readBelow {bound n : Nat} {l rest : List UInt8}
    (h : readBelow bound l = some (n, rest)) : rest.length < l.length := by
  unfold readBelow at h
  split at h
  next hr =>
    split at h
    next => cases h; exact length_readGroups hr
    next => cases h
  next => cases h

def read64 (l : List UInt8) : Option (Nat × List UInt8) := readBelow UInt64.size l

def read32 (l : List UInt8) : Option (Nat × List UInt8) := readBelow UInt32.size l

/-- Negative numbers stand for their 64-bit two's complement. -/
def ofInt32 (v : Int32) : Nat := (v.toInt % UInt64.size).toNat

def toInt32? (n : Nat) : Option Int32 :=
  let v : Int := if n < UInt64.size / 2 then n else n - UInt64.size
  if Int32.minValue.toInt ≤ v && v ≤ Int32.maxValue.toInt then some (Int32.ofInt v) else none

/-- Numbers one after another to the end. -/
def readAll : List UInt8 → Option (List Nat)
  | [] => some []
  | b :: rest =>
      match _h : read64 (b :: rest) with
      | some (n, rest) => (readAll rest).map (n :: ·)
      | none => none
termination_by l => l.length
decreasing_by exact length_readBelow _h

end Varint
end StaticCalls.Wire
