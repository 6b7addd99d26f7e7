import StaticCalls.Scip.Message
import StaticCalls.Wire.Field

/-! Encoding a SCIP index: fields in the order of their numbers, empty ones left out, lists of
numbers packed. -/
namespace StaticCalls.Scip
open Wire (Field)

def textField (number : Nat) (s : String) : List Field :=
  if s = "" then [] else [⟨number, .bytes s.toUTF8.toList⟩]

def int32Field (number : Nat) (v : Int32) : List Field :=
  if v = 0 then [] else [⟨number, .varint (Wire.Varint.ofInt32 v)⟩]

def int32sField (number : Nat) (l : List Int32) : List Field :=
  if l.isEmpty then []
  else [⟨number, .bytes (l.flatMap fun v => Wire.Varint.write (Wire.Varint.ofInt32 v))⟩]

def messageField (number : Nat) (fields : List Field) : Field := ⟨number, .bytes (Wire.write fields)⟩

def OccurrenceMessage.fields (o : OccurrenceMessage) : List Field :=
  int32sField 1 o.range ++ textField 2 o.symbol ++ int32Field 3 o.symbolRoles ++
    int32sField 7 o.enclosingRange

def SymbolMessage.fields (s : SymbolMessage) : List Field :=
  textField 1 s.symbol ++ int32Field 5 s.kind ++ textField 6 s.displayName

def DocumentMessage.fields (d : DocumentMessage) : List Field :=
  textField 1 d.relativePath ++ d.occurrences.map (fun o => messageField 2 o.fields) ++
    d.symbols.map fun s => messageField 3 s.fields

def IndexMessage.fields (i : IndexMessage) : List Field :=
  i.documents.map fun d => messageField 2 d.fields

def IndexMessage.encode (i : IndexMessage) : List UInt8 := Wire.write i.fields

end StaticCalls.Scip
