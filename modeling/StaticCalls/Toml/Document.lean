import StaticCalls.Toml.Number
import StaticCalls.Toml.Table

/-! TOML documents: lines of keys and values under table headers. -/
namespace StaticCalls.Toml
open Reader

/-- Arrays and inline tables may be nested one less than this, and keys dotted as often. -/
def nestingLimit : Nat := 80

def isBareChar (c : Char) : Bool := c.isAlphanum || c == '_' || c == '-'

def simpleKey : Reader String := do
  match ← peek with
  | some '"' => basicString
  | some '\'' => literalString
  | _ => return String.ofList (← takeWhile1 isBareChar)

/-- A dotted key, as the path to its last part and that part. -/
def key : Reader (List String × String) := do
  let parts ← sepBy1 (blanks *> simpleKey <* blanks) (char '.')
  match parts.getLast? with
  | some last => if parts.length < nestingLimit then return (parts.dropLast, last) else fail
  | none => fail

def array (item : Reader Value) : Reader Value := do
  char '['
  let items ← sepBy (gaps *> item <* gaps) (char ',')
  if !items.isEmpty then
    let _ ← optional (char ',')
  gaps
  char ']'
  return .array items

/-- No comma follows the last pair, and there are no line breaks between pairs. -/
def inlineTable (item : Reader Value) : Reader Value := do
  char '\x7b'
  let pairs ← sepBy (do
    let (path, last) ← key
    char '='
    let v ← blanks *> item <* blanks
    return (path, last, v)) (char ',')
  blanks
  char '\x7d'
  match Entries.ofPairs pairs with
  | some entries => return .table .inline entries
  | none => fail

/-- A value with at most `room` containers inside of one another. -/
def value (room : Nat) : Reader Value := do
  match ← peek with
  | some '"' => .string <$> string
  | some '\'' => .string <$> string
  | some '[' =>
      match room with
      | room + 1 => array (value room)
      | 0 => fail
  | some '\x7b' =>
      match room with
      | room + 1 => inlineTable (value room)
      | 0 => fail
  | some 't' => text "true" *> return .bool true
  | some 'f' => text "false" *> return .bool false
  | _ => (dateTime <|> float <|> integer) *> return .other

def keyValue : Reader Line := do
  let (path, last) ← key
  char '='
  blanks
  let v ← value (nestingLimit - 1)
  lineEnd
  return .assign path last v

def header : Reader Line := do
  match ← get with
  | '[' :: '[' :: _ => do
      text "[["
      let (path, last) ← key
      text "]]"
      lineEnd
      return .arrayHeader path last
  | _ => do
      char '['
      let (path, last) ← key
      char ']'
      lineEnd
      return .header path last

def line : Reader Line := do
  let l ← match ← peek with
    | some '#' => (comment *> lineBreak) *> return .blank
    | some '[' => header
    | some '\n' => newline *> return .blank
    | some '\r' => newline *> return .blank
    | _ => keyValue
  blanks
  return l

/-- A byte order mark in front is no part of the document. -/
def document : Reader (List Line) := do
  let _ ← optional (char (Char.ofNat 0xfeff))
  blanks
  let lines ← many line
  atEnd
  return lines

/-- The root table of a document. -/
def parse? (source : String) : Option Entries := do
  ofLines? (← document.run' source.toList)

end StaticCalls.Toml
