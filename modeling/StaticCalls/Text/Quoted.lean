import StaticCalls.Text.Printable

/-! Characters in single quotes, as messages show them. -/
namespace StaticCalls.Text

/-- Lower-case hexadecimal without leading zeros, in braces. -/
def codePointEscape (c : Char) : String :=
  "\\u\x7b" ++ String.ofList (Nat.toDigits 16 c.toNat) ++ "\x7d"

/-- Escapes what would not show by itself or would end the quotation. -/
def escapeChar (c : Char) : String :=
  if c = Char.ofNat 0 then "\\0"
  else if c = '\t' then "\\t"
  else if c = '\r' then "\\r"
  else if c = '\n' then "\\n"
  else if c = '\'' then "\\'"
  else if c = '\\' then "\\\\"
  else if extendsGrapheme c || !isPrintable c then codePointEscape c
  else c.toString

def quoteChar (c : Char) : String := "'" ++ escapeChar c ++ "'"

end StaticCalls.Text
