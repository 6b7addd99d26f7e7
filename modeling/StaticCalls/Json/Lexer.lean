import StaticCalls.Json.Token

/-! From octets to tokens. Strings keep their octets until the closing quote and only then have to
be UTF-8, so a string that is skipped may hold anything but controls and broken escapes. -/
namespace StaticCalls.Json.Lexer

def isBlank (b : UInt8) : Bool := b == 0x20 || b == 0x09 || b == 0x0a || b == 0x0d

def isDigit (b : UInt8) : Bool := 0x30 ≤ b && b ≤ 0x39

def punctuation? (b : UInt8) : Option Token :=
  if b = 0x5b then some .openBracket
  else if b = 0x5d then some .closeBracket
  else if b = 0x7b then some .openBrace
  else if b = 0x7d then some .closeBrace
  else if b = 0x2c then some .comma
  else if b = 0x3a then some .colon
  else none

/-! ### Strings -/

def quoteMark : UInt8 := 0x22
def backslash : UInt8 := 0x5c

/-- The octets up to the closing quote, escapes left as they are, and what follows it. -/
def literal : List UInt8 → Option (List UInt8 × List UInt8)
  | [] => none
  | [b] => if b = quoteMark then some ([], []) else none
  | b :: c :: rest =>
      if b = quoteMark then some ([], c :: rest)
      else if b = backslash then
        (literal rest).map fun (inside, rest) => (b :: c :: inside, rest)
      else if b < 0x20 then none
      else (literal (c :: rest)).map fun (inside, rest) => (b :: inside, rest)

def hexValue? (b : UInt8) : Option Nat :=
  if isDigit b then some (b.toNat - 0x30)
  else if 0x41 ≤ b && b ≤ 0x46 then some (b.toNat - 0x37)
  else if 0x61 ≤ b && b ≤ 0x66 then some (b.toNat - 0x57)
  else none

def hexQuad? (a b c d : UInt8) : Option Nat := do
  return ((← hexValue? a) * 16 + (← hexValue? b)) * 256 + ((← hexValue? c) * 16 + (← hexValue? d))

/-- The escapes of a single letter. -/
def shortEscape? (b : UInt8) : Option UInt8 :=
  if b = quoteMark || b = backslash || b = 0x2f then some b
  else if b = 0x62 then some 0x08
  else if b = 0x66 then some 0x0c
  else if b = 0x6e then some 0x0a
  else if b = 0x72 then some 0x0d
  else if b = 0x74 then some 0x09
  else none

def isHighSurrogate (n : Nat) : Bool := 0xd800 ≤ n && n < 0xdc00

def isLowSurrogate (n : Nat) : Bool := 0xdc00 ≤ n && n < 0xe000

/-- A part of a literal: an octet that stands for itself, or a unit escaped by number. -/
inductive Part where
  | octet (b : UInt8)
  | unit (n : Nat)

/-- The parts of the inside of a literal; a malformed escape is no JSON at all. -/
def parts? : List UInt8 → Option (List Part)
  | [] => some []
  | b :: rest =>
      if b = backslash then
        match rest with
        | 0x75 :: a :: b :: c :: d :: rest =>
            match hexQuad? a b c d with
            | some n => (parts? rest).map (.unit n :: ·)
            | none => none
        | mark :: rest =>
            match shortEscape? mark with
            | some escaped => (parts? rest).map (.octet escaped :: ·)
            | none => none
        | [] => none
      else (parts? rest).map (.octet b :: ·)

/-- The octets of the text. Two halves of a surrogate pair are one character; a half that stands
alone is none. -/
def spell? : List Part → Option (List UInt8)
  | [] => some []
  | .octet b :: rest => (spell? rest).map (b :: ·)
  | .unit n :: rest =>
      if isLowSurrogate n then none
      else if isHighSurrogate n then
        match rest with
        | .unit low :: rest =>
            if isLowSurrogate low then
              let c := Char.ofNat (0x10000 + (n - 0xd800) * 0x400 + (low - 0xdc00))
              (spell? rest).map (String.utf8EncodeChar c ++ ·)
            else none
        | _ => none
      else (spell? rest).map (String.utf8EncodeChar (Char.ofNat n) ++ ·)

def stringToken? (inside : List UInt8) : Option Token := do
  let parts ← parts? inside
  return .string (do String.fromUTF8? (← spell? parts).toByteArray)

/-! ### Numbers and words -/

def digits (l : List UInt8) : List UInt8 × List UInt8 := (l.takeWhile isDigit, l.dropWhile isDigit)

def natValue (digits : List UInt8) : Nat :=
  digits.foldl (fun n b => 10 * n + (b.toNat - 0x30)) 0

/-- One digit at least. -/
def digits1? (l : List UInt8) : Option (List UInt8) :=
  match digits l with
  | ([], _) => none
  | (_, rest) => some rest

/-- What follows the fraction, if the point begins one; true if there is one. -/
def fraction? : List UInt8 → Option (Bool × List UInt8)
  | b :: rest => if b = 0x2e then (digits1? rest).map (true, ·) else some (false, b :: rest)
  | [] => some (false, [])

def dropSign : List UInt8 → List UInt8
  | b :: rest => if b = 0x2b || b = 0x2d then rest else b :: rest
  | [] => []

def exponent? : List UInt8 → Option (Bool × List UInt8)
  | b :: rest =>
      if b = 0x65 || b = 0x45 then (digits1? (dropSign rest)).map (true, ·)
      else some (false, b :: rest)
  | [] => some (false, [])

/-- A number without its sign: no digit comes after a leading zero. -/
def unsigned? (negative : Bool) (l : List UInt8) : Option (Token × List UInt8) :=
  match digits l with
  | ([], _) => none
  | (whole, rest) => do
      if whole.length > 1 && whole.head? == some 0x30 then none
      let (hasFraction, rest) ← fraction? rest
      let (hasExponent, rest) ← exponent? rest
      let n := natValue whole
      if hasFraction || hasExponent || (negative && n == 0) then return (.decimal, rest)
      else return (.integer (if negative then -n else n), rest)

def number? : List UInt8 → Option (Token × List UInt8)
  | b :: rest => if b = 0x2d then unsigned? true rest else unsigned? false (b :: rest)
  | [] => none

def word? : List UInt8 → Option (Token × List UInt8)
  | 0x74 :: 0x72 :: 0x75 :: 0x65 :: rest => some (.bool true, rest)
  | 0x66 :: 0x61 :: 0x6c :: 0x73 :: 0x65 :: rest => some (.bool false, rest)
  | 0x6e :: 0x75 :: 0x6c :: 0x6c :: rest => some (.null, rest)
  | _ => none

/-- The token at the head, which is no blank. -/
def token? : List UInt8 → Option (Token × List UInt8)
  | [] => none
  | b :: rest =>
      match punctuation? b with
      | some t => some (t, rest)
      | none =>
          if b = quoteMark then do
            let (inside, rest) ← literal rest
            return (← stringToken? inside, rest)
          else if b = 0x2d || isDigit b then number? (b :: rest)
          else word? (b :: rest)

/-! ### Every token uses up some text -/

theorem length_literal {l inside rest : List UInt8} (h : literal l = some (inside, rest)) :
    rest.length < l.length := by
  fun_induction literal l generalizing inside <;> grind [Option.map_eq_some_iff]

theorem length_digits (l : List UInt8) : (digits l).2.length ≤ l.length :=
  (List.dropWhile_sublist _).length_le

theorem length_digits1? {l rest : List UInt8} (h : digits1? l = some rest) :
    rest.length ≤ l.length := by
  have := length_digits l
  grind [digits1?]

theorem length_fraction? {l rest : List UInt8} {b : Bool} (h : fraction? l = some (b, rest)) :
    rest.length ≤ l.length := by
  unfold fraction? at h
  split at h
  next b l =>
    split at h
    next =>
      obtain ⟨r, hr, he⟩ := Option.map_eq_some_iff.mp h
      cases he
      exact Nat.le_succ_of_le (length_digits1? hr)
    next => grind
  next => grind

theorem length_dropSign (l : List UInt8) : (dropSign l).length ≤ l.length := by
  unfold dropSign
  grind

theorem length_exponent? {l rest : List UInt8} {b : Bool} (h : exponent? l = some (b, rest)) :
    rest.length ≤ l.length := by
  unfold exponent? at h
  split at h
  next b l =>
    split at h
    next =>
      obtain ⟨r, hr, he⟩ := Option.map_eq_some_iff.mp h
      cases he
      exact Nat.le_succ_of_le (Nat.le_trans (length_digits1? hr) (length_dropSign l))
    next => grind
  next => grind

/-- The first digit is used up. -/
theorem length_digits_lt {l : List UInt8} (h : (digits l).1 ≠ []) :
    (digits l).2.length < l.length := by
  cases l with
  | nil => simp [digits] at h
  | cons b rest =>
    by_cases hb : isDigit b
    · have hle : (rest.dropWhile isDigit).length ≤ rest.length :=
        (List.dropWhile_sublist isDigit).length_le
      show ((b :: rest).dropWhile isDigit).length < rest.length + 1
      rw [List.dropWhile_cons_of_pos hb]
      omega
    · exact absurd (List.takeWhile_cons_of_neg hb) h

theorem length_unsigned? {l rest : List UInt8} {t : Token} {negative : Bool}
    (h : unsigned? negative l = some (t, rest)) : rest.length < l.length := by
  unfold unsigned? at h
  split at h
  next => cases h
  next whole rest₀ hne hd =>
    have hlt := length_digits_lt (l := l) (by grind)
    cases hf : fraction? rest₀ with
    | none => grind
    | some r =>
      have : r.2.length ≤ rest₀.length := length_fraction? hf
      cases he : exponent? r.2 with
      | none => grind
      | some r' =>
        have : r'.2.length ≤ r.2.length := length_exponent? he
        grind

theorem length_number? {l rest : List UInt8} {t : Token} (h : number? l = some (t, rest)) :
    rest.length < l.length := by
  unfold number? at h
  split at h
  next =>
    split at h
    next => exact Nat.lt_succ_of_lt (length_unsigned? h)
    next => exact length_unsigned? h
  next => cases h

theorem length_word? {l rest : List UInt8} {t : Token} (h : word? l = some (t, rest)) :
    rest.length < l.length := by
  unfold word? at h
  grind

theorem length_token? {l rest : List UInt8} {t : Token} (h : token? l = some (t, rest)) :
    rest.length < l.length := by
  unfold token? at h
  split at h
  next => cases h
  next b l =>
    split at h
    next => grind
    next =>
      split at h
      next =>
        cases hl : literal l with
        | none => simp [hl] at h
        | some r =>
          have : r.2.length < l.length := length_literal hl
          cases hs : stringToken? r.1 with
          | none => simp [hl, hs] at h
          | some t' => simp [hl, hs] at h; grind
      next =>
        split at h
        next => exact length_number? h
        next => exact length_word? h

def tokens? : List UInt8 → Option (List Token)
  | [] => some []
  | b :: rest =>
      if isBlank b then tokens? rest
      else
        match _h : token? (b :: rest) with
        | none => none
        | some (t, rest) => (tokens? rest).map (t :: ·)
termination_by l => l.length
decreasing_by
  · simp
  · exact length_token? _h

end StaticCalls.Json.Lexer
