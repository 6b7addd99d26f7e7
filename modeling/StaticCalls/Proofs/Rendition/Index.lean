import StaticCalls.IndexFile
import StaticCalls.Proofs.Json.Reading
import StaticCalls.Proofs.Rendition.Records

/-! Indexes that are written as JSON are read back. However large an index is, its rendition is
nested six levels deep, which is far from what a reader refuses. -/
namespace StaticCalls
open Json (Decoder Record)

theorem SymbolRoles.reads : Json.Reads SymbolRoles.ofJson? SymbolRoles.toJson 0 := by
  intro roles room
  rw [ofJson?, toJson, Json.int32?_integer]
  rfl

theorem Occurrence.reads : Json.Reads Occurrence.ofJson? Occurrence.toJson 2 := by
  intro o room
  rw [ofJson?, toJson, Json.record?_object]
  · simp only [Option.bind_eq_bind, Option.bind_some]
    rw [Record.required_eq rfl (Json.string?_string _ _),
      Record.withDefault_eq rfl (SymbolRoles.reads o.roles _),
      Record.required_eq rfl (SourceRange.reads o.range room),
      Record.optional_eq ?_ SourceRange.toJson_ne_null
        fun r (_ : r ∈ o.enclosingRange) => SourceRange.reads r room]
    · rfl
    · cases o.enclosingRange <;> rfl
  · exact (List.Sublist.refl ["symbol", "roles", "range"]).append (Json.keys_optionalMember _ _ _)
  · decide

theorem SymbolInformation.reads :
    Json.Reads SymbolInformation.ofJson? SymbolInformation.toJson 1 := by
  intro info room
  rw [ofJson?, toJson, Json.record?_object]
  · simp only [Option.bind_eq_bind, Option.bind_some]
    rw [Record.required_eq rfl (Json.string?_string _ _),
      Record.withDefault_eq rfl (Json.string?_string _ _),
      Record.optional_eq ?_ ?_ fun s (_ : s ∈ info.displayName) => Json.string?_string _ s]
    · rfl
    · cases info.displayName <;> rfl
    · rintro _ ⟨⟩
  · exact (List.Sublist.refl ["symbol", "kind"]).append (Json.keys_optionalMember _ _ _)
  · decide

theorem Document.reads : Json.Reads Document.ofJson? Document.toJson 4 := by
  intro d room
  rw [ofJson?, toJson, Json.record?_object]
  · simp only [Option.bind_eq_bind, Option.bind_some]
    rw [Record.required_eq rfl (Json.string?_string _ _),
      Record.withDefault_eq rfl (Occurrence.reads.list d.occurrences room),
      Record.withDefault_eq rfl ((SymbolInformation.reads.list.mono 1) d.symbols room)]
    rfl
  · exact List.Sublist.refl _
  · decide

namespace Index

theorem reads : Json.Reads Index.ofJson? Index.toJson 6 := by
  intro index room
  rw [ofJson?, toJson, Json.record?_object]
  · simp only [Option.bind_eq_bind, Option.bind_some]
    rw [Record.withDefault_eq rfl (Document.reads.list index.documents room)]
    rfl
  · exact List.Sublist.refl _
  · decide

theorem ofRendition_toJson (index : Index) :
    ofRendition index.toJson.compact.toUTF8.toList = .ok index := by
  have hdecoded : Json.decode? ofJson? index.toJson.compact.toUTF8.toList = some index := by
    rw [Json.compact, Json.decode?, Json.ofBytes?_write Json.Lexer.isBlank_compact]
    exact reads index 121
  rw [ofRendition, hdecoded]

end Index
end StaticCalls
