import StaticCalls.Scip.Message
import StaticCalls.Scip.Schema

/-! Reading an encoded SCIP index. Of a field that is given again the last value counts; repeated
fields are joined. -/
namespace StaticCalls.Scip

abbrev Fields := List (Nat × Value)

namespace Fields

def values (fields : Fields) (number : Nat) : List Value :=
  (fields.filter fun f => f.1 == number).map Prod.snd

def text (fields : Fields) (number : Nat) : String :=
  ((fields.values number).filterMap fun
    | .text s => some s
    | _ => none).getLast?.getD ""

def int32 (fields : Fields) (number : Nat) : Int32 :=
  ((fields.values number).filterMap fun
    | .int32 n => some n
    | _ => none).getLast?.getD 0

def int32s (fields : Fields) (number : Nat) : List Int32 :=
  (fields.values number).flatMap fun
    | .int32s l => l
    | _ => []

def messages (fields : Fields) (number : Nat) : List Fields :=
  (fields.values number).filterMap fun
    | .message inner => some inner
    | _ => none

end Fields

def OccurrenceMessage.ofFields (fields : Fields) : OccurrenceMessage where
  range := fields.int32s 1
  symbol := fields.text 2
  symbolRoles := fields.int32 3
  enclosingRange := fields.int32s 7

def SymbolMessage.ofFields (fields : Fields) : SymbolMessage where
  symbol := fields.text 1
  kind := fields.int32 5
  displayName := fields.text 6

def DocumentMessage.ofFields (fields : Fields) : DocumentMessage where
  relativePath := fields.text 1
  occurrences := (fields.messages 2).map OccurrenceMessage.ofFields
  symbols := (fields.messages 3).map SymbolMessage.ofFields

def IndexMessage.ofFields (fields : Fields) : IndexMessage where
  documents := (fields.messages 2).map DocumentMessage.ofFields

def IndexMessage.decode? (octets : List UInt8) : Option IndexMessage :=
  (Scip.decode? maxNesting .index octets (Wire.outermost octets)).map IndexMessage.ofFields

end StaticCalls.Scip
