import StaticCalls.Wire.Varint

/-! The fields of an encoded message: a tag with number and wire type, then the payload. Groups
are skipped up to the tag that ends them. Where the whole encoding ends, between two fields, all
messages that are still open end with it, even if they were announced to be longer. -/
namespace StaticCalls.Wire

inductive Payload where
  | varint (n : Nat)
  /-- Octets, and how many of the announced ones are missing at the end of the encoding. -/
  | bytes (octets : List UInt8) (missing : Nat := 0)
deriving DecidableEq, Repr

structure Field where
  number : Nat
  payload : Payload
deriving DecidableEq, Repr

/-- What a tag begins. A payload of fixed width belongs to no field that is read here. -/
inductive Item where
  | field (f : Field)
  | fixed
  | groupStart
  | groupEnd
deriving DecidableEq, Repr

/-- The first `n` octets, how many of them are missing, and the rest. -/
def split : Nat → List UInt8 → List UInt8 × Nat × List UInt8
  | 0, l => ([], 0, l)
  | n + 1, [] => ([], n + 1, [])
  | n + 1, b :: l =>
      let (taken, missing, rest) := split n l
      (b :: taken, missing, rest)

theorem length_split (n : Nat) (l : List UInt8) : (split n l).2.2.length ≤ l.length := by
  fun_induction split n l <;> grind

/-- Leaves out `n` octets, which all have to be there. -/
def skip? (n : Nat) (l : List UInt8) : Option (List UInt8) :=
  match split n l with
  | (_, 0, rest) => some rest
  | _ => none

theorem length_skip? {n : Nat} {l rest : List UInt8} (h : skip? n l = some rest) :
    rest.length ≤ l.length := by
  have := length_split n l
  grind [skip?]

/-- What stands behind a tag, in a message that misses so many octets at its end. -/
def body? (missing number wireType : Nat) (l : List UInt8) : Option (Item × List UInt8) :=
  match wireType with
  | 0 => (Varint.read64 l).map fun (n, rest) => (.field ⟨number, .varint n⟩, rest)
  | 1 => (skip? 8 l).map fun rest => (.fixed, rest)
  | 2 =>
      match Varint.read64 l with
      | some (n, rest) =>
          let (octets, lacking, rest) := split n rest
          if lacking ≤ missing then some (.field ⟨number, .bytes octets lacking⟩, rest) else none
      | none => none
  | 3 => some (.groupStart, l)
  | 4 => some (.groupEnd, l)
  | 5 => (skip? 4 l).map fun rest => (.fixed, rest)
  | _ => none

theorem length_body? {missing number wireType : Nat} {l rest : List UInt8} {i : Item}
    (h : body? missing number wireType l = some (i, rest)) : rest.length ≤ l.length := by
  unfold body? at h
  split at h
  next =>
    obtain ⟨r, hr, he⟩ := Option.map_eq_some_iff.mp h
    cases he
    exact Nat.le_of_lt (Varint.length_readBelow hr)
  next =>
    obtain ⟨r, hr, he⟩ := Option.map_eq_some_iff.mp h
    cases he
    exact length_skip? hr
  next =>
    split at h
    next n rest' hr =>
      have := length_split n rest'
      have := Varint.length_readBelow hr
      grind
    next => cases h
  next => cases h; exact Nat.le_refl _
  next => cases h; exact Nat.le_refl _
  next =>
    obtain ⟨r, hr, he⟩ := Option.map_eq_some_iff.mp h
    cases he
    exact length_skip? hr
  next => cases h

/-- A tag holds the field number, from one on, above three bits of wire type. -/
def item? (missing : Nat) (l : List UInt8) : Option (Item × List UInt8) :=
  match Varint.read32 l with
  | some (tag, rest) => if tag / 8 = 0 then none else body? missing (tag / 8) (tag % 8) rest
  | none => none

theorem length_item? {missing : Nat} {l rest : List UInt8} {i : Item}
    (h : item? missing l = some (i, rest)) : rest.length < l.length := by
  unfold item? at h
  split at h
  next hr =>
    split at h
    next => cases h
    next => exact Nat.lt_of_le_of_lt (length_body? h) (Varint.length_readBelow hr)
  next => cases h

/-- The fields outside of groups, when `groups` of them are open. -/
def fieldsWithin? (missing groups : Nat) (l : List UInt8) : Option (List Field) :=
  match l with
  | [] => if groups = 0 then some [] else none
  | b :: rest =>
      match _h : item? missing (b :: rest) with
      | none => none
      | some (.groupStart, rest) => fieldsWithin? missing (groups + 1) rest
      | some (.groupEnd, rest) =>
          if groups = 0 then none else fieldsWithin? missing (groups - 1) rest
      | some (.fixed, rest) => fieldsWithin? missing groups rest
      | some (.field f, rest) =>
          if groups = 0 then (fieldsWithin? missing 0 rest).map (f :: ·)
          else fieldsWithin? missing groups rest
termination_by l.length
decreasing_by all_goals exact length_item? _h

/-- The fields of a message in the order in which they are encoded. -/
def fields? (missing : Nat) (l : List UInt8) : Option (List Field) := fieldsWithin? missing 0 l

/-- What the outermost message may lack: its length is bounded by the largest number alone. -/
def outermost (l : List UInt8) : Nat := UInt64.size - 1 - l.length

/-! ### Writing -/

def tag (number wireType : Nat) : List UInt8 := Varint.write (number * 8 + wireType)

def Field.write : Field → List UInt8
  | ⟨number, .varint n⟩ => tag number 0 ++ Varint.write n
  | ⟨number, .bytes octets missing⟩ =>
      tag number 2 ++ Varint.write (octets.length + missing) ++ octets

def write (fields : List Field) : List UInt8 := fields.flatMap Field.write

end StaticCalls.Wire
