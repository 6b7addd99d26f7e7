import StaticCalls.Json.Token

/-! Writing JSON, on one line or spread over lines with two spaces of indent per level. Both are
the tokens of the value, each after some blank space. -/
namespace StaticCalls.Json

/-- The blanks in front of a member or an item, and between a colon and its value. -/
structure Style where
  newline : Nat → String
  gap : String

def Style.compact : Style := ⟨fun _ => "", ""⟩

def Style.pretty : Style := ⟨fun depth => "\n" ++ "".pushn ' ' (2 * depth), " "⟩

/-- The tokens of a value at some depth, each with the blank in front of it. -/
def layout (style : Style) (depth : Nat) (blank : String) : Json → List (String × Token)
  | null => [(blank, .null)]
  | bool b => [(blank, .bool b)]
  | integer n => [(blank, .integer n)]
  | string s => [(blank, .string (some s))]
  | skipped => [(blank, .decimal)]
  | array [] => [(blank, .openBracket), ("", .closeBracket)]
  | array (item :: rest) =>
      (blank, .openBracket) :: (item.layout style (depth + 1) (style.newline (depth + 1)) ++
        items style depth rest)
  | object [] => [(blank, .openBrace), ("", .closeBrace)]
  | object ((key, value) :: rest) =>
      (blank, .openBrace) :: (style.newline (depth + 1), .string (some key)) :: ("", .colon) ::
        (value.layout style (depth + 1) style.gap ++ members style depth rest)
where
  items (style : Style) (depth : Nat) : List Json → List (String × Token)
    | [] => [(style.newline depth, .closeBracket)]
    | item :: rest =>
        ("", .comma) :: (item.layout style (depth + 1) (style.newline (depth + 1)) ++
          items style depth rest)
  members (style : Style) (depth : Nat) : List (String × Json) → List (String × Token)
    | [] => [(style.newline depth, .closeBrace)]
    | (key, value) :: rest =>
        ("", .comma) :: (style.newline (depth + 1), .string (some key)) :: ("", .colon) ::
          (value.layout style (depth + 1) style.gap ++ members style depth rest)

def write (style : Style) (v : Json) : String :=
  String.join ((v.layout style 0 "").map fun (blank, token) => blank ++ token.text)

def compact (v : Json) : String := v.write .compact

def pretty (v : Json) : String := v.write .pretty

end StaticCalls.Json
