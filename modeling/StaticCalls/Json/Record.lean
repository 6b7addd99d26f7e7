import StaticCalls.Json.Reader
import StaticCalls.StringMap

/-! Reading records with named fields. A record is an object, or an array of its fields in their
declared order whose end may be missing. Unknown members are skipped, whatever they hold; a known
one may stand only once. Containers that are read, unlike those that are skipped, may be nested
only so deep, so each reader is told how many levels it may still enter. -/
namespace StaticCalls.Json

/-- The levels that may be entered from the top of a text. -/
def maxRoom : Nat := 127

/-- Reads a value when so many levels may be entered. -/
abbrev Decoder (α : Type) := Nat → Json → Option α

/-- The fields that are there, and the levels left inside of the record. -/
structure Record where
  fields : List (String × Json)
  room : Nat

def record? (names : List String) : Decoder Record
  | room + 1, .array items =>
      if items.length ≤ names.length then some ⟨names.zip items, room⟩ else none
  | room + 1, .object members =>
      let known := members.filter fun m => names.contains m.1
      if (known.map Prod.fst).Nodup then some ⟨known, room⟩ else none
  | _, _ => none

namespace Record
variable {α : Type}

def field? (r : Record) (name : String) : Option Json := r.fields.lookup name

def required (r : Record) (name : String) (read : Decoder α) : Option α := do
  read r.room (← r.field? name)

def withDefault (r : Record) (name : String) (default : α) (read : Decoder α) : Option α :=
  match r.field? name with
  | some v => read r.room v
  | none => some default

/-- A field that is missing or `null` holds nothing. -/
def optional (r : Record) (name : String) (read : Decoder α) : Option (Option α) :=
  match r.field? name with
  | some .null => some none
  | some v => (read r.room v).map some
  | none => some none

end Record

variable {α : Type}

def list? (read : Decoder α) : Decoder (List α)
  | room + 1, .array items => items.mapM (read room)
  | _, _ => none

def string? : Decoder String
  | _, .string s => some s
  | _, _ => none

def bool? : Decoder Bool
  | _, .bool b => some b
  | _, _ => none

/-- A number from 0 to 2^64 - 1. -/
def size? : Decoder Nat
  | _, .integer (.ofNat n) => if n < UInt64.size then some n else none
  | _, _ => none

def uint32? : Decoder UInt32
  | _, .integer (.ofNat n) => if n < UInt32.size then some (UInt32.ofNat n) else none
  | _, _ => none

def int32? : Decoder Int32
  | _, .integer n =>
      if Int32.minValue.toInt ≤ n && n ≤ Int32.maxValue.toInt then some (Int32.ofInt n) else none
  | _, _ => none

/-- One of several names: the bare name, or an object of that one name with `null`. -/
def named? (ofText? : String → Option α) : Decoder α
  | _, .string s => ofText? s
  | _ + 1, .object [(name, .null)] => ofText? name
  | _, _ => none

/-- A map from strings; of a repeated key the last value stays. -/
def map? (read : Decoder α) : Decoder (StringMap α)
  | room + 1, .object members => do
      return .ofList (← members.mapM fun (key, v) => (read room v).map (key, ·))
  | _, _ => none

def ofMap (f : α → Json) (m : StringMap α) : Json :=
  .object (m.entries.map fun (key, a) => (key, f a))

/-- Members for the fields that hold something. -/
def optionalMember (name : String) (f : α → Json) : Option α → List (String × Json)
  | some a => [(name, f a)]
  | none => []

def decode? (read : Decoder α) (bytes : List UInt8) : Option α := do
  read maxRoom (← ofBytes? bytes)

def decodeText? (read : Decoder α) (text : String) : Option α := decode? read text.toUTF8.toList

end StaticCalls.Json
