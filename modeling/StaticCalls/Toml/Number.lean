import StaticCalls.Toml.Text

/-! Numbers and dates. They are only checked: integers must fit 64 bits, floating-point numbers
must not be too large, and dates and times must exist. -/
namespace StaticCalls.Toml
open Reader

/-- Digits with single underscores between them. -/
def digitRun (p : Char → Bool) : Reader (List Char) := do
  let first ← satisfy p
  let rest ← many (satisfy p <|> (char '_' *> satisfy p))
  return first :: rest

def sign : Reader (Option Char) := optional (satisfy fun c => c == '+' || c == '-')

/-- A zero, or digits that do not begin with one. -/
def wholeDigits : Reader (List Char) := do
  match ← peek with
  | some '0' => do
      char '0'
      return ['0']
  | _ => digitRun Char.isDigit

/-- The first number that is too large for 64 bits with a sign. -/
def signedBound : Nat := 0x8000000000000000

def decimalInteger : Reader Unit := do
  let s ← sign
  let n := number 10 (← wholeDigits)
  if n < signedBound || (s == some '-' && n == signedBound) then return else fail

def prefixedInteger (mark : String) (base : Nat) (p : Char → Bool) : Reader Unit := do
  text mark
  if number base (← digitRun p) < signedBound then return else fail

def integer : Reader Unit :=
  prefixedInteger "0x" 16 isHexDigit <|>
    prefixedInteger "0o" 8 (fun c => '0' ≤ c && c ≤ '7') <|>
    prefixedInteger "0b" 2 (fun c => c == '0' || c == '1') <|> decimalInteger

/-- Whether `mantissa * 10 ^ exponent` rounds to a finite double. The bound lies half a step above
the largest one; far from it the number of digits decides. -/
def isFinite (mantissa : Nat) (exponent : Int) : Bool :=
  let size : Int := (Nat.toDigits 10 mantissa).length + exponent
  if mantissa = 0 || size ≤ 308 then true
  else if 310 ≤ size then false
  else
    let bound := Nat.pow 2 1024 - Nat.pow 2 970
    if 0 ≤ exponent then mantissa * Nat.pow 10 exponent.toNat < bound
    else mantissa < bound * Nat.pow 10 (-exponent).toNat

def exponent : Reader Int := do
  let _ ← satisfy fun c => c == 'e' || c == 'E'
  let s ← sign
  let n : Int := number 10 (← digitRun Char.isDigit)
  return if s == some '-' then -n else n

def decimalFloat : Reader Unit := do
  let s ← sign
  let whole ← wholeDigits
  let fraction ← optional (char '.' *> digitRun Char.isDigit)
  let e ← if fraction.isSome then optional exponent else some <$> exponent
  let digits := fraction.getD []
  if s == some '-' || isFinite (number 10 (whole ++ digits)) (e.getD 0 - digits.length) then return
  else fail

def float : Reader Unit :=
  decimalFloat <|> do
    let _ ← sign
    text "inf" <|> text "nan"

/-! ### Dates and times -/

/-- So many digits with a value in the given bounds. -/
def twoDigits (least most : Nat) : Reader Nat := do
  let n := number 10 (← exactly Char.isDigit 2)
  if least ≤ n && n ≤ most then return n else fail

def daysIn (year month : Nat) : Nat :=
  if month = 2 then if year % 4 = 0 && (year % 100 ≠ 0 || year % 400 = 0) then 29 else 28
  else if month = 4 || month = 6 || month = 9 || month = 11 then 30
  else 31

def date : Reader Unit := do
  let year := number 10 (← exactly Char.isDigit 4)
  char '-'
  let month ← twoDigits 1 12
  char '-'
  let _ ← twoDigits 1 (daysIn year month)

/-- A minute may have a leap second. -/
def time : Reader Unit := do
  let _ ← twoDigits 0 23
  char ':'
  let _ ← twoDigits 0 59
  char ':'
  let _ ← twoDigits 0 60
  let _ ← optional (char '.' *> takeWhile1 Char.isDigit)

def offset : Reader Unit :=
  (do let _ ← satisfy fun c => c == 'Z' || c == 'z') <|> do
    let _ ← satisfy fun c => c == '+' || c == '-'
    let _ ← twoDigits 0 23
    char ':'
    let _ ← twoDigits 0 59

def dateTime : Reader Unit :=
  (do
    date
    let _ ← optional do
      let _ ← satisfy fun c => c == 'T' || c == 't' || c == ' '
      time
      optional offset) <|> time

end StaticCalls.Toml
