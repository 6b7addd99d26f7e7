import StaticCalls.Json.Lexer

/-! From tokens to values, with the open containers in a list, so that no depth of nesting is too
deep to read. -/
namespace StaticCalls.Json

/-- A container that is still open, its contents newest first. -/
inductive Open where
  | array (items : List Json)
  /-- The last key waits for its value. -/
  | object (members : List (Option String × Json)) (key : Option String)

/-- An object with a key that spells no text can only be skipped. -/
def ofMembers (members : List (Option String × Json)) : Json :=
  match members.mapM fun (key, value) => key.map (·, value) with
  | some members => .object members
  | none => .skipped

mutual

/-- Reads on where a value has to stand. -/
def readValue : List Open → List Token → Option Json
  | stack, .null :: rest => readAfter .null stack rest
  | stack, .bool b :: rest => readAfter (.bool b) stack rest
  | stack, .integer n :: rest => readAfter (.integer n) stack rest
  | stack, .decimal :: rest => readAfter .skipped stack rest
  | stack, .string (some s) :: rest => readAfter (.string s) stack rest
  | stack, .string none :: rest => readAfter .skipped stack rest
  | stack, .openBracket :: .closeBracket :: rest => readAfter (.array []) stack rest
  | stack, .openBracket :: rest => readValue (.array [] :: stack) rest
  | stack, .openBrace :: .closeBrace :: rest => readAfter (.object []) stack rest
  | stack, .openBrace :: .string key :: .colon :: rest =>
      readValue (.object [] key :: stack) rest
  | _, _ => none

/-- Reads on after the value `v`, the last one of the innermost container. -/
def readAfter (v : Json) : List Open → List Token → Option Json
  | [], [] => some v
  | .array items :: stack, .comma :: rest => readValue (.array (v :: items) :: stack) rest
  | .array items :: stack, .closeBracket :: rest =>
      readAfter (.array (v :: items).reverse) stack rest
  | .object members key :: stack, .comma :: .string next :: .colon :: rest =>
      readValue (.object ((key, v) :: members) next :: stack) rest
  | .object members key :: stack, .closeBrace :: rest =>
      readAfter (ofMembers ((key, v) :: members).reverse) stack rest
  | _, _ => none

end

/-- One value and nothing else but blanks. -/
def ofBytes? (bytes : List UInt8) : Option Json := do
  readValue [] (← Lexer.tokens? bytes)

def ofText? (text : String) : Option Json := ofBytes? text.toUTF8.toList

end StaticCalls.Json
