import StaticCalls.Index.Document
import StaticCalls.Json.Record

/-! The JSON rendition of an index and of all it consists of. -/
namespace StaticCalls
open Json (Decoder)

namespace Position

def toJson (p : Position) : Json :=
  .object [("line", .nat p.line.toNat), ("character", .nat p.character.toNat)]

def ofJson? : Decoder Position := fun room v => do
  let r ← Json.record? ["line", "character"] room v
  return ⟨← r.required "line" Json.uint32?, ← r.required "character" Json.uint32?⟩

end Position

namespace SourceRange

def toJson (r : SourceRange) : Json :=
  .object [("start_line", .nat r.start.line.toNat),
    ("start_character", .nat r.start.character.toNat), ("end_line", .nat r.stop.line.toNat),
    ("end_character", .nat r.stop.character.toNat)]

def ofJson? : Decoder SourceRange := fun room v => do
  let r ← Json.record? ["start_line", "start_character", "end_line", "end_character"] room v
  return .ofCoordinates (← r.required "start_line" Json.uint32?)
    (← r.required "start_character" Json.uint32?) (← r.required "end_line" Json.uint32?)
    (← r.required "end_character" Json.uint32?)

end SourceRange

namespace SymbolRoles

def toJson (roles : SymbolRoles) : Json := .integer roles.bits.toInt

def ofJson? : Decoder SymbolRoles := fun room v => (Json.int32? room v).map .mk

end SymbolRoles

namespace Occurrence

def toJson (o : Occurrence) : Json :=
  .object ([("symbol", .string o.symbol), ("roles", o.roles.toJson), ("range", o.range.toJson)] ++
    Json.optionalMember "enclosing_range" SourceRange.toJson o.enclosingRange)

def ofJson? : Decoder Occurrence := fun room v => do
  let r ← Json.record? ["symbol", "roles", "range", "enclosing_range"] room v
  return {
    symbol := ← r.required "symbol" Json.string?
    roles := ← r.withDefault "roles" ∅ SymbolRoles.ofJson?
    range := ← r.required "range" SourceRange.ofJson?
    enclosingRange := ← r.optional "enclosing_range" SourceRange.ofJson? }

end Occurrence

namespace SymbolInformation

def toJson (info : SymbolInformation) : Json :=
  .object ([("symbol", .string info.symbol), ("kind", .string info.kind)] ++
    Json.optionalMember "display_name" .string info.displayName)

def ofJson? : Decoder SymbolInformation := fun room v => do
  let r ← Json.record? ["symbol", "kind", "display_name"] room v
  return {
    symbol := ← r.required "symbol" Json.string?
    kind := ← r.withDefault "kind" "" Json.string?
    displayName := ← r.optional "display_name" Json.string? }

end SymbolInformation

namespace Document

def toJson (d : Document) : Json :=
  .object [("relative_path", .string d.relativePath),
    ("occurrences", .list Occurrence.toJson d.occurrences),
    ("symbols", .list SymbolInformation.toJson d.symbols)]

def ofJson? : Decoder Document := fun room v => do
  let r ← Json.record? ["relative_path", "occurrences", "symbols"] room v
  return {
    relativePath := ← r.required "relative_path" Json.string?
    occurrences := ← r.withDefault "occurrences" [] (Json.list? Occurrence.ofJson?)
    symbols := ← r.withDefault "symbols" [] (Json.list? SymbolInformation.ofJson?) }

end Document

namespace Index

def toJson (index : Index) : Json :=
  .object [("documents", .list Document.toJson index.documents)]

def ofJson? : Decoder Index := fun room v => do
  let r ← Json.record? ["documents"] room v
  return ⟨← r.withDefault "documents" [] (Json.list? Document.ofJson?)⟩

end Index
end StaticCalls
