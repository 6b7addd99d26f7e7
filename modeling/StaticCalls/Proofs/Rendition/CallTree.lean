import StaticCalls.Proofs.CallTree.Height
import StaticCalls.Proofs.Json.Reading
import StaticCalls.Proofs.Rendition.Records
import StaticCalls.Rendition.CallTree

/-! Call trees that are written are read back as long as they are not too high: a tree takes two
levels for each generation and three for the last one. -/
namespace StaticCalls
open Json (Decoder)

namespace DefinitionLocation
variable {room : Nat}

theorem record?_toJson (l : DefinitionLocation) (room : Nat) :
    Json.record? ["document", "range", "enclosing_range"] (room + 1) l.toJson =
      some ⟨[("document", .string l.document), ("range", l.range.toJson)] ++
        Json.optionalMember "enclosing_range" SourceRange.toJson l.enclosingRange, room⟩ :=
  Json.record?_object
    ((List.Sublist.refl ["document", "range"]).append (Json.keys_optionalMember _ _ _)) (by decide)

/-- A definition takes two levels, its own and that of its ranges. -/
theorem reads : Json.Reads ofJson? toJson 2 := by
  intro l room
  rw [ofJson?, record?_toJson]
  simp only [Option.bind_eq_bind, Option.bind_some]
  rw [Json.Record.required_eq rfl (Json.string?_string _ _),
    Json.Record.required_eq rfl (SourceRange.reads l.range room),
    Json.Record.optional_eq ?_ SourceRange.toJson_ne_null
      fun r (_ : r ∈ l.enclosingRange) => SourceRange.reads r room]
  · rfl
  · cases l.enclosingRange <;> rfl

theorem ofJson?_one (l : DefinitionLocation) : ofJson? 1 l.toJson = none := by
  rw [ofJson?, record?_toJson]
  simp only [Option.bind_eq_bind, Option.bind_some]
  have hrange : (⟨[("document", .string l.document), ("range", l.range.toJson)] ++
      Json.optionalMember "enclosing_range" SourceRange.toJson l.enclosingRange, 0⟩ :
        Json.Record).required "range" SourceRange.ofJson? = none :=
    SourceRange.ofJson?_zero l.range.toJson
  rw [hrange]
  rfl

end DefinitionLocation

namespace ReferenceLocation

theorem reads : Json.Reads ofJson? toJson 2 := by
  intro l room
  rw [ofJson?, toJson, Json.record?_object]
  · simp only [Option.bind_eq_bind, Option.bind_some]
    rw [Json.Record.required_eq rfl (Json.string?_string _ _),
      Json.Record.required_eq rfl (SourceRange.reads l.range room)]
    rfl
  · exact List.Sublist.refl _
  · decide

theorem toJson_ne_null (l : ReferenceLocation) : l.toJson ≠ .null := by
  rintro ⟨⟩

end ReferenceLocation

namespace CallTree

/-- The levels that a text may nest suffice for so many generations. -/
def maxHeight : Nat := 61

/-- All depths that the records tell are numbers of 64 bits. -/
def Bounded (t : CallTree) : Prop := ∀ r ∈ t.records, ∀ d ∈ r.depth, d < UInt64.size

theorem Bounded.of_mem_children {t c : CallTree} (h : t.Bounded) (hc : c ∈ t.children) :
    c.Bounded := by
  intro r hr
  refine h r ?_
  have hsubset {l : List CallTree} (hc : c ∈ l) : r ∈ records.ofAll l := by
    induction l with
    | nil => cases hc
    | cons t rest ih =>
      rw [records.ofAll, List.mem_append]
      rcases List.mem_cons.mp hc with rfl | hrest
      · exact .inl hr
      · exact .inr (ih hrest)
  rw [records_eq]
  exact List.mem_cons_of_mem _ (hsubset hc)

/-- The members of a record, but for the children. -/
def ownMembers (t : CallTree) : List (String × Json) :=
  [("symbol", .string t.symbol), ("definition_node", t.definition.toJson)] ++
    Json.optionalMember "reference_node" ReferenceLocation.toJson t.reference ++
    Json.optionalMember "depth" .nat t.depth

theorem toJson_eq (t : CallTree) : t.toJson =
    .object (t.ownMembers ++ [("children", .array (toJson.listToJson t.children))]) := by
  cases t
  rw [toJson]
  rfl

theorem listToJson_eq (l : List CallTree) : toJson.listToJson l = l.map toJson := by
  induction l with
  | nil => rfl
  | cons t rest ih => rw [toJson.listToJson, ih, List.map_cons]

theorem record?_toJson (t : CallTree) (room : Nat) :
    Json.record? fieldNames (room + 1) t.toJson =
      some ⟨t.ownMembers ++ [("children", .array (toJson.listToJson t.children))], room⟩ := by
  rw [toJson_eq, Json.record?_object]
  · rw [ownMembers, List.map_append, List.map_append, List.map_append]
    exact (((List.Sublist.refl ["symbol", "definition_node"]).append
      (Json.keys_optionalMember "reference_node" _ _)).append
      (Json.keys_optionalMember "depth" _ _)).append (List.Sublist.refl ["children"])
  · decide

section Record
variable (t : CallTree) (children : Json) (room : Nat)

/-- The record that a tree is read off. -/
def record : Json.Record := ⟨t.ownMembers ++ [("children", children)], room⟩

theorem field?_reference : (t.record children room).field? "reference_node" =
    t.reference.map ReferenceLocation.toJson := by
  simp [record, ownMembers, Json.Record.field?, List.lookup_append, List.lookup_cons]

theorem field?_depth : (t.record children room).field? "depth" = t.depth.map .nat := by
  simp [record, ownMembers, Json.Record.field?, List.lookup_append, List.lookup_cons]

theorem field?_children : (t.record children room).field? "children" = some children := by
  simp [record, ownMembers, Json.Record.field?, List.lookup_append, List.lookup_cons]

/-- What a record says of its own is read back, with whatever children. -/
theorem ofRecord?_record (hdepth : ∀ d ∈ t.depth, d < UInt64.size) (grown : List CallTree) :
    ofJson?.ofRecord? (t.record children (room + 2)) grown = some { t with children := grown } := by
  rw [ofJson?.ofRecord?, Json.Record.required_eq rfl (Json.string?_string _ _),
    Json.Record.required_eq rfl (DefinitionLocation.reads t.definition room),
    Json.Record.optional_eq (t.field?_reference children _) ReferenceLocation.toJson_ne_null
      fun l _ => ReferenceLocation.reads l room,
    Json.Record.optional_eq (t.field?_depth children _) (by rintro _ ⟨⟩)
      fun d hd => Json.size?_nat _ (hdepth d hd)]
  rfl

/-- There is no room for a definition. -/
theorem ofRecord?_one (grown : List CallTree) :
    ofJson?.ofRecord? (t.record children 1) grown = none := by
  have hdefinition : (t.record children 1).required "definition_node" DefinitionLocation.ofJson? =
      none := t.definition.ofJson?_one
  rw [ofJson?.ofRecord?, Json.Record.required_eq rfl (Json.string?_string _ _), hdefinition]
  rfl

end Record

theorem ofJson?_eq (t : CallTree) (room : Nat) : ofJson? (room + 2) t.toJson =
    ((toJson.listToJson t.children).mapM (ofJson? room)).bind
      (ofJson?.ofRecord? (t.record (.array (toJson.listToJson t.children)) (room + 1))) := by
  rw [ofJson?, record?_toJson]
  simp only [Option.bind_eq_bind, Option.bind_some]
  rw [Json.Record.withDefault]
  have hchildren := t.field?_children (.array (toJson.listToJson t.children)) (room + 1)
  rw [record] at hchildren
  simp only [hchildren]
  rfl

mutual

/-- A tree is read back where there is room for it. -/
theorem ofJson?_toJson : (t : CallTree) → (room : Nat) → t.Bounded → 2 * t.height + 3 ≤ room →
    ofJson? room t.toJson = some t
  | ⟨symbol, definition, reference, depth, children⟩, room, hbounded, hroom => by
    obtain ⟨n, rfl⟩ : ∃ n, room = n + 3 := ⟨room - 3, by omega⟩
    have hlower : ∀ c ∈ children, 2 * c.height + 3 ≤ n + 1 := by
      intro c hc
      have hheight := heights_le_iff.mp (Nat.le_refl (height.heights children)) c hc
      rw [height] at hroom
      omega
    rw [ofJson?_eq, mapM_ofJson?_listToJson children (n + 1)
      (fun c hc => hbounded.of_mem_children hc) hlower]
    exact ofRecord?_record _ _ _ (hbounded _ (by rw [records_eq]; exact List.mem_cons_self)) _

theorem mapM_ofJson?_listToJson : (l : List CallTree) → (room : Nat) → (∀ t ∈ l, t.Bounded) →
    (∀ t ∈ l, 2 * t.height + 3 ≤ room) → (toJson.listToJson l).mapM (ofJson? room) = some l
  | [], _, _, _ => rfl
  | t :: rest, room, hbounded, hroom => by
    rw [List.forall_mem_cons] at hbounded hroom
    rw [toJson.listToJson, List.mapM_cons, ofJson?_toJson t room hbounded.1 hroom.1,
      mapM_ofJson?_listToJson rest room hbounded.2 hroom.2]
    rfl

end

mutual

/-- A tree is not read back where there is no room for it. -/
theorem ofJson?_toJson_eq_none : (t : CallTree) → (room : Nat) → room < 2 * t.height + 3 →
    ofJson? room t.toJson = none
  | ⟨_, _, _, _, _⟩, 0, _ => rfl
  | ⟨_, _, _, _, _⟩, 1, _ => rfl
  | ⟨symbol, definition, reference, depth, children⟩, 2, _ => by
    rw [ofJson?_eq]
    cases (toJson.listToJson children).mapM (ofJson? 0) with
    | none => rfl
    | some grown => exact ofRecord?_one _ _ grown
  | ⟨symbol, definition, reference, depth, children⟩, n + 3, hroom => by
    -- some child is too high for what is left
    have hlower : ∃ c ∈ children, n + 1 < 2 * c.height + 3 := by
      by_contra hnone
      have hheight : height.heights children ≤ n / 2 := by
        rw [heights_le_iff]
        intro c hc
        have hle : ¬ n + 1 < 2 * c.height + 3 := fun h => hnone ⟨c, hc, h⟩
        omega
      rw [height] at hroom
      omega
    rw [ofJson?_eq, mapM_ofJson?_listToJson_eq_none children (n + 1) hlower]
    rfl

theorem mapM_ofJson?_listToJson_eq_none : (l : List CallTree) → (room : Nat) →
    (∃ t ∈ l, room < 2 * t.height + 3) → (toJson.listToJson l).mapM (ofJson? room) = none
  | [], _, hroom => by
    obtain ⟨_, ⟨⟩, _⟩ := hroom
  | t :: rest, room, hroom => by
    rw [toJson.listToJson, List.mapM_cons]
    obtain ⟨c, hc, hlow⟩ := hroom
    rcases List.mem_cons.mp hc with heq | hrest
    · rw [heq] at hlow
      rw [ofJson?_toJson_eq_none t room hlow]
      rfl
    · rw [mapM_ofJson?_listToJson_eq_none rest room ⟨c, hrest, hlow⟩]
      cases ofJson? room t.toJson <;> rfl

end

end CallTree

namespace CallForest
variable {f : CallForest}

/-- What comes out when the forest is written in either style and read back. -/
structure ReadsAs (f : CallForest) (outcome : Option CallForest) : Prop where
  pretty : Json.decodeText? ofJson? f.pretty = outcome
  compact : Json.decodeText? ofJson? f.compact = outcome

theorem ReadsAs.of_decoder {outcome : Option CallForest}
    (h : ofJson? Json.maxRoom f.toJson = outcome) : f.ReadsAs outcome where
  pretty := by
    rw [CallForest.pretty, Json.pretty, Json.decodeText?_write Json.Lexer.isBlank_pretty, h]
  compact := by
    rw [CallForest.compact, Json.compact, Json.decodeText?_write Json.Lexer.isBlank_compact, h]

theorem ofJson?_toJson (f : CallForest) (room : Nat) : ofJson? (room + 1) f.toJson =
    ((CallTree.toJson.listToJson f.roots).mapM (CallTree.ofJson? room)).map .mk := by
  rw [CallTree.listToJson_eq]
  rfl

theorem readsAs_self (hbounded : ∀ t ∈ f.roots, t.Bounded)
    (hlow : ∀ t ∈ f.roots, t.height ≤ CallTree.maxHeight) : f.ReadsAs (some f) := by
  refine .of_decoder ?_
  have hroom : ∀ t ∈ f.roots, 2 * t.height + 3 ≤ 126 := by
    intro t ht
    have hheight := hlow t ht
    rw [CallTree.maxHeight] at hheight
    omega
  show ofJson? (126 + 1) f.toJson = _
  rw [ofJson?_toJson, CallTree.mapM_ofJson?_listToJson f.roots 126 hbounded hroom]
  rfl

theorem readsAs_none {t : CallTree} (ht : t ∈ f.roots) (hhigh : CallTree.maxHeight < t.height) :
    f.ReadsAs none := by
  refine .of_decoder ?_
  have hroom : 126 < 2 * t.height + 3 := by
    rw [CallTree.maxHeight] at hhigh
    omega
  show ofJson? (126 + 1) f.toJson = _
  rw [ofJson?_toJson, CallTree.mapM_ofJson?_listToJson_eq_none f.roots 126 ⟨t, ht, hroom⟩]
  rfl

end CallForest
end StaticCalls
