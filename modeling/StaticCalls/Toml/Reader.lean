/-! Readers of text that may fail and then leave the text as it was. -/
namespace StaticCalls.Toml

abbrev Reader (α : Type) := StateT (List Char) Option α

namespace Reader
variable {α β : Type}

def fail : Reader α := fun _ => none

/-- The next character, left where it is. -/
def peek : Reader (Option Char) := do return (← get).head?

def atEnd : Reader Unit := do if (← get).isEmpty then return else fail

def satisfy (p : Char → Bool) : Reader Char := fun
  | c :: rest => if p c then some (c, rest) else none
  | [] => none

def char (c : Char) : Reader Unit := do let _ ← satisfy (· == c)

def text (s : String) : Reader Unit := s.toList.forM char

def takeWhile (p : Char → Bool) : Reader (List Char) := fun cs =>
  some (cs.takeWhile p, cs.dropWhile p)

def takeWhile1 (p : Char → Bool) : Reader (List Char) := do
  let taken ← takeWhile p
  if taken.isEmpty then fail else return taken

/-- As often as it succeeds and takes something. -/
def manyFrom (r : Reader α) (cs : List Char) : List α × List Char :=
  match r cs with
  | some (a, rest) =>
      if rest.length < cs.length then
        let (as, rest) := manyFrom r rest
        (a :: as, rest)
      else ([], cs)
  | none => ([], cs)
termination_by cs.length

def many (r : Reader α) : Reader (List α) := fun cs => some (manyFrom r cs)

def sepBy1 (r : Reader α) (separator : Reader Unit) : Reader (List α) := do
  let first ← r
  return first :: (← many (separator *> r))

def sepBy (r : Reader α) (separator : Reader Unit) : Reader (List α) :=
  sepBy1 r separator <|> return []

/-- Exactly so many characters. -/
def exactly (p : Char → Bool) : Nat → Reader (List Char)
  | 0 => return []
  | n + 1 => do
      let c ← satisfy p
      return c :: (← exactly p n)

end Reader
end StaticCalls.Toml
