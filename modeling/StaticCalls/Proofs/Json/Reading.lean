import StaticCalls.Json.Record
import StaticCalls.Proofs.Json.Layout

/-! Reading a written value gives the value back, however deep it is (`ofBytes?_write`). The tokens
of a value are read to its end below any open containers. -/
namespace StaticCalls.Json
variable {style : Style}

theorem layout_eq_cons (style : Style) (depth : Nat) (blank : String) (v : Json) :
    ∃ t entries, v.layout style depth blank = (blank, t) :: entries ∧ t ≠ .closeBracket := by
  cases v with
  | array items => cases items <;> exact ⟨_, _, by rw [layout], by rintro ⟨⟩⟩
  | object members => cases members <;> exact ⟨_, _, by rw [layout], by rintro ⟨⟩⟩
  | _ => exact ⟨_, _, by rw [layout], by rintro ⟨⟩⟩

theorem ofMembers_some (members : List (String × Json)) :
    ofMembers (members.map fun m => (some m.1, m.2)) = .object members := by
  have hmembers : members.mapM (fun m => some (m.1, m.2)) = some (members.map id) :=
    List.mapM_pure
  simp [ofMembers, Function.comp_def, hmembers]

abbrev tokensOf (entries : List (String × Token)) : List Token := entries.map Prod.snd

theorem tokensOf_cons_append (blank : String) (t : Token) (entries : List (String × Token))
    (rest : List Token) :
    tokensOf ((blank, t) :: entries) ++ rest = t :: (tokensOf entries ++ rest) := rfl

theorem tokensOf_append_append (entries entries' : List (String × Token)) (rest : List Token) :
    tokensOf (entries ++ entries') ++ rest = tokensOf entries ++ (tokensOf entries' ++ rest) := by
  rw [tokensOf, List.map_append, List.append_assoc]

theorem tokensOf_nil_append (rest : List Token) : tokensOf [] ++ rest = rest := rfl

/-- A bracket that is not closed at once opens an array. -/
theorem readValue_openBracket (v : Json) (depth : Nat) (blank : String) (stack : List Open)
    (rest : List Token) :
    readValue stack (.openBracket :: (tokensOf (v.layout style depth blank) ++ rest)) =
      readValue (.array [] :: stack) (tokensOf (v.layout style depth blank) ++ rest) := by
  obtain ⟨t, entries, hlayout, ht⟩ := layout_eq_cons style depth blank v
  rw [hlayout, tokensOf_cons_append, readValue]
  exact fun _ heq => ht (List.cons.inj heq).1

mutual

/-- The tokens of a value are read to its end. -/
theorem readValue_layout (style : Style) : (v : Json) → (depth : Nat) → (blank : String) →
    (stack : List Open) → (rest : List Token) →
      readValue stack (tokensOf (v.layout style depth blank) ++ rest) = readAfter v stack rest
  | .null, _, _, _, _ => by
    rw [layout, tokensOf_cons_append, tokensOf_nil_append, readValue]
  | .bool b, _, _, _, _ => by
    rw [layout, tokensOf_cons_append, tokensOf_nil_append, readValue]
  | .integer n, _, _, _, _ => by
    rw [layout, tokensOf_cons_append, tokensOf_nil_append, readValue]
  | .string s, _, _, _, _ => by
    rw [layout, tokensOf_cons_append, tokensOf_nil_append, readValue]
  | .skipped, _, _, _, _ => by
    rw [layout, tokensOf_cons_append, tokensOf_nil_append, readValue]
  | .array [], _, _, _, _ => by
    rw [layout, tokensOf_cons_append, tokensOf_cons_append, tokensOf_nil_append, readValue]
  | .array (item :: items), depth, _, stack, rest => by
    rw [layout, tokensOf_cons_append, tokensOf_append_append, readValue_openBracket,
      readValue_layout style item, readAfter_items style items]
    rfl
  | .object [], _, _, _, _ => by
    rw [layout, tokensOf_cons_append, tokensOf_cons_append, tokensOf_nil_append, readValue]
  | .object ((key, value) :: members), depth, _, stack, rest => by
    rw [layout, tokensOf_cons_append, tokensOf_cons_append, tokensOf_cons_append,
      tokensOf_append_append, readValue, readValue_layout style value,
      readAfter_members style members, ← ofMembers_some]
    rfl

/-- The items that follow the item `v`. -/
theorem readAfter_items (style : Style) : (items : List Json) → (depth : Nat) → (v : Json) →
    (before : List Json) → (stack : List Open) → (rest : List Token) →
      readAfter v (.array before :: stack) (tokensOf (layout.items style depth items) ++ rest) =
        readAfter (.array ((v :: before).reverse ++ items)) stack rest
  | [], _, _, _, _, _ => by
    rw [layout.items, tokensOf_cons_append, tokensOf_nil_append, readAfter, List.append_nil]
  | item :: items, depth, v, before, stack, rest => by
    rw [layout.items, tokensOf_cons_append, tokensOf_append_append, readAfter,
      readValue_layout style item, readAfter_items style items, List.reverse_cons,
      List.append_assoc]
    rfl

/-- The members that follow the member of some key, whose value is `v`. -/
theorem readAfter_members (style : Style) : (members : List (String × Json)) → (depth : Nat) →
    (v : Json) → (before : List (Option String × Json)) → (key : Option String) →
    (stack : List Open) → (rest : List Token) →
      readAfter v (.object before key :: stack)
          (tokensOf (layout.members style depth members) ++ rest) =
        readAfter (ofMembers (((key, v) :: before).reverse ++
          members.map fun m => (some m.1, m.2))) stack rest
  | [], _, _, _, _, _, _ => by
    rw [layout.members, tokensOf_cons_append, tokensOf_nil_append, readAfter, List.map_nil,
      List.append_nil]
  | (next, value) :: members, depth, v, before, key, stack, rest => by
    rw [layout.members, tokensOf_cons_append, tokensOf_cons_append, tokensOf_cons_append,
      tokensOf_append_append, readAfter, readValue_layout style value,
      readAfter_members style members, List.reverse_cons, List.append_assoc]
    rfl

end

/-- Whatever blanks stand between the tokens of a value, it is read back. -/
theorem ofBytes?_write (hstyle : Lexer.IsBlank style) (v : Json) :
    ofBytes? (v.write style).toUTF8.toList = some v := by
  have hvalue := readValue_layout style v 0 "" [] []
  rw [List.append_nil] at hvalue
  rw [ofBytes?, Lexer.tokens?_write hstyle]
  simp only [Option.bind_eq_bind, Option.bind_some]
  rw [hvalue, readAfter]

/-- Decoding a text that has been written is decoding the value that it was written of. -/
theorem decodeText?_write {α : Type} (hstyle : Lexer.IsBlank style) (read : Decoder α) (v : Json) :
    decodeText? read (v.write style) = read maxRoom v := by
  simp only [decodeText?, decode?, ofBytes?_write hstyle, Option.bind_eq_bind, Option.bind_some]

end StaticCalls.Json
