import StaticCalls.Toml.Reader

/-! Blanks, comments and strings. -/
namespace StaticCalls.Toml
open Reader

def isBlank (c : Char) : Bool := c == ' ' || c == '\t'

/-- Comments hold anything but controls; the delete character is allowed. -/
def isCommentChar (c : Char) : Bool := c == '\t' || 0x20 ≤ c.toNat

/-- A character that a string can hold without an escape, but for its quotes. -/
def isPlainChar (c : Char) : Bool := c == '\t' || (0x20 ≤ c.toNat && c.toNat != 0x7f)

def isBasicChar (c : Char) : Bool := isPlainChar c && c != '"' && c != '\\'

def isLiteralChar (c : Char) : Bool := isPlainChar c && c != '\''

def blanks : Reader Unit := do let _ ← takeWhile isBlank

def newline : Reader Unit := char '\n' <|> text "\r\n"

def comment : Reader Unit := do
  char '#'
  let _ ← takeWhile isCommentChar

def lineBreak : Reader Unit := newline <|> atEnd

/-- What may follow a key and its value, or a header. -/
def lineEnd : Reader Unit := do
  blanks
  let _ ← optional comment
  lineBreak

/-- Blanks, comments and line breaks, as arrays allow them between their items. -/
def gaps : Reader Unit := do
  blanks
  let _ ← many do
    let _ ← optional comment
    newline
    blanks

def isHexDigit (c : Char) : Bool :=
  c.isDigit || ('a' ≤ c && c ≤ 'f') || ('A' ≤ c && c ≤ 'F')

def digitValue (c : Char) : Nat :=
  if c.isDigit then c.toNat - 48
  else if 'a' ≤ c && c ≤ 'f' then c.toNat - 87
  else c.toNat - 55

def number (base : Nat) (digits : List Char) : Nat :=
  digits.foldl (fun n c => n * base + digitValue c) 0

/-- A character by its number; surrogates and numbers past the last character are none. -/
def numbered (digits : Nat) : Reader Char := do
  let n := number 16 (← exactly isHexDigit digits)
  if n.isValidChar then return Char.ofNat n else fail

def escape : Reader Char := do
  char '\\'
  match ← satisfy fun _ => true with
  | 'b' => return Char.ofNat 8
  | 't' => return '\t'
  | 'n' => return '\n'
  | 'f' => return Char.ofNat 12
  | 'r' => return '\r'
  | '"' => return '"'
  | '\\' => return '\\'
  | 'u' => numbered 4
  | 'U' => numbered 8
  | _ => fail

def basicString : Reader String := do
  char '"'
  let cs ← many (satisfy isBasicChar <|> escape)
  char '"'
  return String.ofList cs

def literalString : Reader String := do
  char '\''
  let cs ← takeWhile isLiteralChar
  char '\''
  return String.ofList cs

/-- A backslash at the end of a line joins it with the next text. -/
def joinedLines : Reader (List Char) := do
  char '\\'
  blanks
  newline
  let _ ← many ((do let _ ← satisfy isBlank) <|> newline)
  return []

/-- One or two quotes that do not end the string. -/
def innerQuotes (quote : Char) : Reader (List Char) := do
  let quotes ← takeWhile1 (· == quote)
  if quotes.length ≤ 2 then return quotes else fail

/-- Three quotes end the string, and up to two more in front of them belong to it. -/
def closingQuotes (quote : Char) : Reader (List Char) := do
  let quotes ← takeWhile1 (· == quote)
  if 3 ≤ quotes.length && quotes.length ≤ 5 then return quotes.drop 3 else fail

def multiline (quote : Char) (part : Reader (List Char)) : Reader String := do
  char quote; char quote; char quote
  let _ ← optional newline
  let parts ← many (part <|> (newline *> return ['\n']) <|> innerQuotes quote)
  let last ← closingQuotes quote
  return String.ofList (parts.flatten ++ last)

def multilineBasic : Reader String :=
  multiline '"' (takeWhile1 isBasicChar <|> joinedLines <|> (return [← escape]))

def multilineLiteral : Reader String := multiline '\'' (takeWhile1 isLiteralChar)

def string : Reader String := do
  match ← get with
  | '"' :: '"' :: '"' :: _ => multilineBasic
  | '\'' :: '\'' :: '\'' :: _ => multilineLiteral
  | '"' :: _ => basicString
  | _ => literalString

end StaticCalls.Toml
