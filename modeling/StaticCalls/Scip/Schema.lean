import StaticCalls.Wire.Field

/-! The message types of SCIP and the decoding of their fields. Fields that nothing uses are
decoded all the same, so that an encoding is sound or broken as a whole. -/
namespace StaticCalls.Scip

inductive MessageType where
  | index
  | metadata
  | toolInfo
  | document
  | occurrence
  | symbolInformation
  | relationship
  | diagnostic
deriving DecidableEq, Repr

inductive FieldType where
  | text
  /-- Enumerations too. -/
  | int32
  | flag
  /-- Packed, one by one, or both in turn. -/
  | int32s
  | message (type : MessageType)
deriving DecidableEq, Repr

open MessageType FieldType in
def MessageType.fieldType? : MessageType → Nat → Option FieldType
  | index, 1 => some (message metadata)
  | index, 2 => some (message document)
  | index, 3 => some (message symbolInformation)
  | metadata, 1 => some int32
  | metadata, 2 => some (message toolInfo)
  | metadata, 3 => some text
  | metadata, 4 => some int32
  | toolInfo, 1 => some text
  | toolInfo, 2 => some text
  | toolInfo, 3 => some text
  | document, 1 => some text
  | document, 2 => some (message occurrence)
  | document, 3 => some (message symbolInformation)
  | document, 4 => some text
  | document, 5 => some text
  | document, 6 => some int32
  | occurrence, 1 => some int32s
  | occurrence, 2 => some text
  | occurrence, 3 => some int32
  | occurrence, 4 => some text
  | occurrence, 5 => some int32
  | occurrence, 6 => some (message diagnostic)
  | occurrence, 7 => some int32s
  | symbolInformation, 1 => some text
  | symbolInformation, 3 => some text
  | symbolInformation, 4 => some (message relationship)
  | symbolInformation, 5 => some int32
  | symbolInformation, 6 => some text
  | symbolInformation, 7 => some (message document)
  | symbolInformation, 8 => some text
  | relationship, 1 => some text
  | relationship, 2 => some flag
  | relationship, 3 => some flag
  | relationship, 4 => some flag
  | relationship, 5 => some flag
  | diagnostic, 1 => some int32
  | diagnostic, 2 => some text
  | diagnostic, 3 => some text
  | diagnostic, 4 => some text
  | diagnostic, 5 => some int32s
  | _, _ => none

/-- A decoded field. -/
inductive Value where
  | text (s : String)
  | int32 (n : Int32)
  | flag (b : Bool)
  | int32s (l : List Int32)
  | message (fields : List (Nat × Value))

/-- The levels of nesting below the index. -/
def maxNesting : Nat := 100

/-- The known fields of a message that misses so many octets at its end. A field with another wire
type than its own is skipped. Only messages and packed numbers may be cut off. -/
def decode? (room : Nat) (type : MessageType) (octets : List UInt8) (missing : Nat) :
    Option (List (Nat × Value)) := do
  let fields ← Wire.fields? missing octets
  let values ← fields.mapM fun f =>
    match type.fieldType? f.number, f.payload with
    | some .text, .bytes octets 0 =>
        (String.fromUTF8? octets.toByteArray).map fun s => [(f.number, Value.text s)]
    | some .int32, .varint n =>
        (Wire.Varint.toInt32? n).map fun v => [(f.number, Value.int32 v)]
    | some .flag, .varint n =>
        if n < UInt32.size then some [(f.number, Value.flag (n != 0))] else none
    | some .int32s, .varint n =>
        (Wire.Varint.toInt32? n).map fun v => [(f.number, Value.int32s [v])]
    | some .int32s, .bytes octets _ => do
        let numbers ← Wire.Varint.readAll octets
        return [(f.number, Value.int32s (← numbers.mapM Wire.Varint.toInt32?))]
    | some (.message inner), .bytes octets missing =>
        match room with
        | room + 1 => (decode? room inner octets missing).map fun l => [(f.number, Value.message l)]
        | 0 => none
    | _, .bytes _ (_ + 1) => none
    | _, _ => some []
  return values.flatten

end StaticCalls.Scip
