import StaticCalls.CallTree
import StaticCalls.Json.Writer
import StaticCalls.Rendition.Index

/-! The JSON rendition of a call forest: the bare array of its trees. -/
namespace StaticCalls
open Json (Decoder)

namespace DefinitionLocation

def toJson (l : DefinitionLocation) : Json :=
  .object ([("document", .string l.document), ("range", l.range.toJson)] ++
    Json.optionalMember "enclosing_range" SourceRange.toJson l.enclosingRange)

def ofJson? : Decoder DefinitionLocation := fun room v => do
  let r ← Json.record? ["document", "range", "enclosing_range"] room v
  return ⟨← r.required "document" Json.string?, ← r.required "range" SourceRange.ofJson?,
    ← r.optional "enclosing_range" SourceRange.ofJson?⟩

end DefinitionLocation

namespace ReferenceLocation

def toJson (l : ReferenceLocation) : Json :=
  .object [("document", .string l.document), ("range", l.range.toJson)]

def ofJson? : Decoder ReferenceLocation := fun room v => do
  let r ← Json.record? ["document", "range"] room v
  return ⟨← r.required "document" Json.string?, ← r.required "range" SourceRange.ofJson?⟩

end ReferenceLocation

namespace CallTree

def toJson : CallTree → Json
  | ⟨symbol, definition, reference, depth, children⟩ =>
      .object ([("symbol", .string symbol), ("definition_node", definition.toJson)] ++
        Json.optionalMember "reference_node" ReferenceLocation.toJson reference ++
        Json.optionalMember "depth" .nat depth ++ [("children", .array (listToJson children))])
where
  listToJson : List CallTree → List Json
    | [] => []
    | t :: rest => t.toJson :: listToJson rest

def fieldNames : List String :=
  ["symbol", "definition_node", "reference_node", "depth", "children"]

/-- Each generation takes two levels, an array and a record; a record without children takes two
as well, its own and that of its definition. -/
def ofJson? : Decoder CallTree
  | 0, _ => none
  | 1, _ => none
  | room + 2, v => do
      let r ← Json.record? fieldNames (room + 2) v
      ofRecord? r (← r.withDefault "children" [] fun _ v =>
        match v with
        | .array items => items.mapM (ofJson? room)
        | _ => none)
where
  ofRecord? (r : Json.Record) (children : List CallTree) : Option CallTree := do
    return {
      symbol := ← r.required "symbol" Json.string?
      definition := ← r.required "definition_node" DefinitionLocation.ofJson?
      reference := ← r.optional "reference_node" ReferenceLocation.ofJson?
      depth := ← r.optional "depth" Json.size?
      children }

end CallTree

namespace CallForest

def toJson (f : CallForest) : Json := .list CallTree.toJson f.roots

def ofJson? : Decoder CallForest := fun room v => (Json.list? CallTree.ofJson? room v).map .mk

def pretty (f : CallForest) : String := f.toJson.pretty

def compact (f : CallForest) : String := f.toJson.compact

end CallForest
end StaticCalls
