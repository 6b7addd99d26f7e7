import StaticCalls.Json.Lexer
import StaticCalls.Json.Token
import StaticCalls.Proofs.Text.Octets

/-! Written tokens are read back. Each token is read off its text whatever follows, but that a
number must not run into something that goes on with it (`token?_text`). -/
namespace StaticCalls.Json.Lexer
open Token

/-! ### Strings -/

/-- The octet stands for itself in a literal. -/
def IsPlain (b : UInt8) : Prop := b ≠ quoteMark ∧ b ≠ backslash ∧ ¬ b < 0x20

instance : DecidablePred IsPlain := fun b => by
  unfold IsPlain
  infer_instance

theorem isPlain_of_le {b : UInt8} (h : 128 ≤ b.toNat) : IsPlain b := by
  refine ⟨?_, ?_, ?_⟩
  · rintro rfl
    exact absurd h (by decide)
  · rintro rfl
    exact absurd h (by decide)
  · rw [UInt8.lt_iff_toNat_lt]
    exact fun hlt => absurd (Nat.lt_of_le_of_lt h hlt) (by decide)

/-- How a character stands in a literal. -/
inductive Escape (c : Char) : List UInt8 → Prop where
  | short {mark code : UInt8} (hmark : mark ≠ 0x75) (hcode : shortEscape? mark = some code)
      (hchar : String.utf8EncodeChar c = [code]) : Escape c [backslash, mark]
  | number {a b : UInt8} (ha : IsPlain a) (hb : IsPlain b)
      (hquad : hexQuad? 0x30 0x30 a b = some c.toNat) (hsmall : c.toNat < 32) :
      Escape c [backslash, 0x75, 0x30, 0x30, a, b]
  | itself (hplain : ∀ b ∈ String.utf8EncodeChar c, IsPlain b) :
      Escape c (String.utf8EncodeChar c)

theorem isPlain_hexDigit : ∀ n < 32, IsPlain (UInt8.ofNat (hexDigit (n / 16)).toNat) ∧
    IsPlain (UInt8.ofNat (hexDigit (n % 16)).toNat) ∧
    hexQuad? 0x30 0x30 (UInt8.ofNat (hexDigit (n / 16)).toNat)
      (UInt8.ofNat (hexDigit (n % 16)).toNat) = some n ∧
    octets [hexDigit (n / 16), hexDigit (n % 16)] =
      [UInt8.ofNat (hexDigit (n / 16)).toNat, UInt8.ofNat (hexDigit (n % 16)).toNat] := by
  decide +kernel

theorem isPlain_ascii : ∀ n < 128, 32 ≤ n → n ≠ '"'.toNat → n ≠ '\\'.toNat →
    IsPlain (UInt8.ofNat n) := by
  decide +kernel

/-- A character that is neither a control character nor one of the two marks is written as it is. -/
theorem isPlain_utf8EncodeChar {c : Char} (hquote : c ≠ '"') (hback : c ≠ '\\')
    (hlarge : ¬ c.toNat < 32) : ∀ b ∈ String.utf8EncodeChar c, IsPlain b := by
  by_cases hascii : c.toNat < 128
  · rw [utf8EncodeChar_of_lt hascii, List.forall_mem_singleton]
    refine isPlain_ascii c.toNat hascii (Nat.le_of_not_lt hlarge) ?_ ?_
    · exact fun h => hquote (Char.toNat_inj.mp h)
    · exact fun h => hback (Char.toNat_inj.mp h)
  · exact fun b hb => isPlain_of_le (le_of_mem_utf8EncodeChar hascii b hb)

theorem escape_control {c : Char} (hsmall : c.toNat < 32) :
    Escape c (octets ['\\', 'u', '0', '0', hexDigit (c.toNat / 16), hexDigit (c.toNat % 16)]) := by
  obtain ⟨ha, hb, hquad, hoctets⟩ := isPlain_hexDigit c.toNat hsmall
  rw [octets_cons, octets_cons, octets_cons, octets_cons, hoctets]
  exact .number ha hb hquad hsmall

theorem escape_escapeChar (c : Char) : Escape c (octets (escapeChar c).toList) := by
  unfold escapeChar
  split
  next h => rw [h]; exact .short (by decide) rfl rfl
  split
  next h => rw [h]; exact .short (by decide) rfl rfl
  split
  next h => rw [h]; exact .short (by decide) rfl rfl
  split
  next h => rw [h]; exact .short (by decide) rfl rfl
  split
  next h => rw [h]; exact .short (by decide) rfl rfl
  split
  next h => rw [h]; exact .short (by decide) rfl rfl
  split
  next h => rw [h]; exact .short (by decide) rfl rfl
  split
  next hsmall =>
    rw [String.toList_ofList]
    exact escape_control hsmall
  next hquote hback _ _ _ _ _ hlarge =>
    have hitself : octets c.toString.toList = String.utf8EncodeChar c := by
      show octets (String.singleton c).toList = _
      rw [String.toList_singleton, octets_cons, octets_nil, List.append_nil]
    rw [hitself]
    exact .itself (isPlain_utf8EncodeChar hquote hback hlarge)

theorem literal_plain {b : UInt8} (hb : IsPlain b) {rest : List UInt8} (hrest : rest ≠ []) :
    literal (b :: rest) = (literal rest).map fun r => (b :: r.1, r.2) := by
  obtain ⟨c, tail, rfl⟩ := List.exists_cons_of_ne_nil hrest
  rw [literal, if_neg hb.1, if_neg hb.2.1, if_neg hb.2.2]

theorem literal_plains {l : List UInt8} (hl : ∀ b ∈ l, IsPlain b) {rest : List UInt8}
    (hrest : rest ≠ []) :
    literal (l ++ rest) = (literal rest).map fun r => (l ++ r.1, r.2) := by
  induction l with
  | nil => exact (congrFun Option.map_id _).symm
  | cons b l ih =>
    rw [List.forall_mem_cons] at hl
    rw [List.cons_append, literal_plain hl.1 (List.append_ne_nil_of_right_ne_nil _ hrest), ih hl.2,
      Option.map_map]
    rfl

theorem literal_escaped (mark : UInt8) (rest : List UInt8) :
    literal (backslash :: mark :: rest) =
      (literal rest).map fun r => (backslash :: mark :: r.1, r.2) := by
  rw [literal, if_neg (by decide), if_pos rfl]

theorem parts?_short {mark code : UInt8} (hmark : mark ≠ 0x75)
    (hcode : shortEscape? mark = some code) (rest : List UInt8) :
    parts? (backslash :: mark :: rest) = (parts? rest).map (.octet code :: ·) := by
  rw [parts?, if_pos rfl, hcode]
  exact fun _ _ _ _ _ heq => absurd heq hmark

theorem parts?_plain {b : UInt8} (hb : IsPlain b) (rest : List UInt8) :
    parts? (b :: rest) = (parts? rest).map (.octet b :: ·) := by
  rw [parts?.eq_def]
  exact if_neg hb.2.1

theorem parts?_plains {l : List UInt8} (hl : ∀ b ∈ l, IsPlain b) (rest : List UInt8) :
    parts? (l ++ rest) = (parts? rest).map (l.map .octet ++ ·) := by
  induction l with
  | nil => exact (congrFun Option.map_id _).symm
  | cons b l ih =>
    rw [List.forall_mem_cons] at hl
    rw [List.cons_append, parts?_plain hl.1, ih hl.2, Option.map_map]
    rfl

theorem spell?_octets (l : List UInt8) (others : List Part) :
    spell? (l.map .octet ++ others) = (spell? others).map (l ++ ·) := by
  induction l with
  | nil => exact (congrFun Option.map_id _).symm
  | cons b l ih =>
    rw [List.map_cons, List.cons_append, spell?, ih, Option.map_map]
    rfl

namespace Escape
variable {c : Char} {l rest : List UInt8}

theorem literal (h : Escape c l) (hrest : rest ≠ []) :
    literal (l ++ rest) = (Lexer.literal rest).map fun r => (l ++ r.1, r.2) := by
  cases h with
  | short => exact literal_escaped _ _
  | @number a b ha hb =>
    have hplain : ∀ x ∈ [(0x30 : UInt8), 0x30, a, b], IsPlain x := by
      simp only [List.forall_mem_cons, List.not_mem_nil, false_implies, implies_true, and_true]
      exact ⟨by decide, by decide, ha, hb⟩
    have hquad := literal_plains hplain hrest
    show Lexer.literal (backslash :: 0x75 :: ([0x30, 0x30, a, b] ++ rest)) = _
    rw [literal_escaped, hquad, Option.map_map]
    rfl
  | itself hplain => exact literal_plains hplain hrest

/-- The parts of the escape, which spell the character. -/
theorem parts? (h : Escape c l) : ∃ parts, (∀ rest, Lexer.parts? (l ++ rest) =
    (Lexer.parts? rest).map (parts ++ ·)) ∧
      ∀ others, spell? (parts ++ others) = (spell? others).map (String.utf8EncodeChar c ++ ·) := by
  cases h with
  | @short mark code hmark hcode hchar =>
    refine ⟨[.octet code], fun rest => ?_, fun others => ?_⟩
    · exact parts?_short hmark hcode rest
    · rw [hchar]
      rfl
  | @number a b ha hb hquad hsmall =>
    refine ⟨[.unit c.toNat], fun rest => ?_, fun others => ?_⟩
    · show Lexer.parts? (backslash :: 0x75 :: 0x30 :: 0x30 :: a :: b :: rest) = _
      rw [Lexer.parts?, if_pos rfl]
      simp only [hquad]
      rfl
    · have hlow : isLowSurrogate c.toNat = false := by
        simp only [isLowSurrogate, Bool.and_eq_false_iff, decide_eq_false_iff_not]
        omega
      have hhigh : isHighSurrogate c.toNat = false := by
        simp only [isHighSurrogate, Bool.and_eq_false_iff, decide_eq_false_iff_not]
        omega
      rw [List.singleton_append, spell?.eq_def]
      simp only [hlow, hhigh, Char.ofNat_toNat]
      rfl
  | itself hplain => exact ⟨_, parts?_plains hplain, spell?_octets _⟩

end Escape

/-- The inside of a literal that spells some characters. -/
def inside (l : List Char) : List UInt8 := l.flatMap fun c => octets (escapeChar c).toList

theorem octets_quote (s : String) : octets (quote s).toList =
    quoteMark :: (inside s.toList ++ [quoteMark]) := by
  have hinside (l : List Char) :
      octets ((l.map escapeChar).flatMap String.toList) = inside l := by
    induction l with
    | nil => rfl
    | cons c l ih =>
      rw [List.map_cons, List.flatMap_cons, octets_append, ih]
      rfl
  rw [quote, String.toList_append, String.toList_append, String.toList_join, octets_append,
    octets_append, hinside]
  rfl

theorem literal_inside (l : List Char) (rest : List UInt8) :
    literal (inside l ++ quoteMark :: rest) = some (inside l, rest) := by
  induction l with
  | nil => cases rest <;> rfl
  | cons c l ih =>
    have hcons : inside (c :: l) = octets (escapeChar c).toList ++ inside l := List.flatMap_cons
    rw [hcons, List.append_assoc, (escape_escapeChar c).literal (by simp), ih]
    rfl

theorem parts?_inside (l : List Char) :
    ∃ parts, parts? (inside l) = some parts ∧ spell? parts = some (octets l) := by
  induction l with
  | nil => exact ⟨[], rfl, rfl⟩
  | cons c l ih =>
    obtain ⟨others, hothers, hspell⟩ := ih
    obtain ⟨parts, hparts, hchar⟩ := (escape_escapeChar c).parts?
    have hcons : inside (c :: l) = octets (escapeChar c).toList ++ inside l := List.flatMap_cons
    refine ⟨parts ++ others, ?_, ?_⟩
    · rw [hcons, hparts, hothers]
      rfl
    · rw [hchar, hspell]
      rfl

theorem token?_quote (s : String) (rest : List UInt8) :
    token? (octets (quote s).toList ++ rest) = some (.string (some s), rest) := by
  obtain ⟨parts, hparts, hspell⟩ := parts?_inside s.toList
  have hstring : stringToken? (inside s.toList) = some (.string (some s)) := by
    simp only [stringToken?, hparts, hspell, Option.bind_eq_bind, Option.bind_some,
      fromUTF8?_octets]
    rfl
  have hliteral := literal_inside s.toList rest
  rw [octets_quote, List.cons_append, List.append_assoc]
  simp only [token?, show punctuation? quoteMark = none from rfl, if_true, List.singleton_append,
    hliteral, hstring, Option.bind_eq_bind, Option.bind_some]
  rfl

/-! ### Numbers and words -/

/-- A number that ends here goes on in no way. -/
def Stops (rest : List UInt8) : Prop :=
  ∀ b ∈ rest.head?, isDigit b = false ∧ b ≠ 0x2e ∧ b ≠ 0x65 ∧ b ≠ 0x45

theorem digits_of_stops {l rest : List UInt8} (hl : ∀ b ∈ l, isDigit b) (hrest : Stops rest) :
    digits (l ++ rest) = (l, rest) := by
  have htake : rest.takeWhile isDigit = [] ∧ rest.dropWhile isDigit = rest := by
    cases rest with
    | nil => exact ⟨rfl, rfl⟩
    | cons b rest =>
      have hb : ¬ isDigit b := by
        rw [(hrest b rfl).1]
        exact Bool.false_ne_true
      exact ⟨List.takeWhile_cons_of_neg hb, List.dropWhile_cons_of_neg hb⟩
  rw [digits, List.takeWhile_append_of_pos hl, List.dropWhile_append_of_pos hl, htake.1, htake.2,
    List.append_nil]

theorem fraction?_of_stops {rest : List UInt8} (hrest : Stops rest) :
    fraction? rest = some (false, rest) := by
  cases rest with
  | nil => rfl
  | cons b rest => exact if_neg (hrest b rfl).2.1

theorem exponent?_of_stops {rest : List UInt8} (hrest : Stops rest) :
    exponent? rest = some (false, rest) := by
  cases rest with
  | nil => rfl
  | cons b rest =>
    refine if_neg ?_
    rw [Bool.or_eq_true, decide_eq_true_iff, decide_eq_true_iff, not_or]
    exact (hrest b rfl).2.2

/-- The digits of a number. -/
def decimal (n : Nat) : List UInt8 := octets (Nat.toDigits 10 n)

theorem octets_digitChar : ∀ n < 10, octets [n.digitChar] = [UInt8.ofNat (0x30 + n)] := by
  decide

theorem isDigit_ofNat : ∀ n < 10, isDigit (UInt8.ofNat (0x30 + n)) ∧
    (UInt8.ofNat (0x30 + n)).toNat - 0x30 = n ∧ (n ≠ 0 → UInt8.ofNat (0x30 + n) ≠ 0x30) := by
  decide

theorem decimal_of_lt {n : Nat} (h : n < 10) : decimal n = [UInt8.ofNat (0x30 + n)] := by
  rw [decimal, Nat.toDigits_of_lt_base h, octets_digitChar n h]

theorem decimal_of_le {n : Nat} (h : 10 ≤ n) :
    decimal n = decimal (n / 10) ++ [UInt8.ofNat (0x30 + n % 10)] := by
  rw [decimal, Nat.toDigits_of_base_le (by decide) h, octets_append,
    octets_digitChar _ (Nat.mod_lt n (by decide))]
  rfl

/-- Digits without a zero in front, unless it is the only one. -/
structure Spells (l : List UInt8) (n : Nat) : Prop where
  digits : ∀ b ∈ l, isDigit b
  value : natValue l = n
  head : n ≠ 0 → ∃ b rest, l = b :: rest ∧ b ≠ 0x30
  zero : n = 0 → l = [0x30]

theorem spells_decimal (n : Nat) : Spells (decimal n) n := by
  induction n using Nat.strongRecOn with
  | ind n ih =>
    by_cases h : n < 10
    · obtain ⟨hdigit, hvalue, hhead⟩ := isDigit_ofNat n h
      rw [decimal_of_lt h]
      refine ⟨?_, ?_, fun hne => ⟨_, [], rfl, hhead hne⟩, fun hzero => by rw [hzero]; rfl⟩
      · rw [List.forall_mem_singleton]
        exact hdigit
      · rw [natValue, List.foldl_cons, hvalue]
        exact Nat.zero_add n
    · have hle := Nat.le_of_not_lt h
      have hrec := ih (n / 10) (by omega)
      obtain ⟨hdigit, hvalue, _⟩ := isDigit_ofNat (n % 10) (Nat.mod_lt n (by decide))
      rw [decimal_of_le hle]
      refine ⟨?_, ?_, fun _ => ?_, fun hzero => by omega⟩
      · rw [List.forall_mem_append, List.forall_mem_singleton]
        exact ⟨hrec.digits, hdigit⟩
      · have hprefix : (decimal (n / 10)).foldl (fun n b => 10 * n + (b.toNat - 0x30)) 0 =
            n / 10 := hrec.value
        rw [natValue, List.foldl_append, hprefix, List.foldl_cons, hvalue]
        exact Nat.div_add_mod n 10
      · obtain ⟨b, rest, heq, hb⟩ := hrec.head (by omega)
        rw [heq]
        exact ⟨b, _, rfl, hb⟩

theorem Spells.ne_nil {l : List UInt8} {n : Nat} (h : Spells l n) : l ≠ [] := by
  by_cases hzero : n = 0
  · rw [h.zero hzero]
    exact List.cons_ne_nil _ _
  · obtain ⟨b, rest, heq, _⟩ := h.head hzero
    rw [heq]
    exact List.cons_ne_nil _ _

theorem Spells.unsigned? {l rest : List UInt8} {n : Nat} (h : Spells l n) (hrest : Stops rest)
    (negative : Bool) (hnegative : negative = true → n ≠ 0) : unsigned? negative (l ++ rest) =
      some (.integer (if negative then -n else n), rest) := by
  have hleading : (decide (l.length > 1) && l.head? == some 0x30) = false := by
    by_cases hzero : n = 0
    · rw [h.zero hzero]
      rfl
    · obtain ⟨b, tail, heq, hb⟩ := h.head hzero
      rw [heq, List.head?_cons, Bool.and_eq_false_iff]
      exact .inr (by simpa using hb)
  have hminus : (negative && n == 0) = false := by
    cases negative with
    | false => rfl
    | true => simpa using hnegative rfl
  obtain ⟨b, tail, hcons⟩ := List.exists_cons_of_ne_nil h.ne_nil
  have hdigits := digits_of_stops h.digits hrest
  unfold Lexer.unsigned?
  rw [hdigits]
  subst hcons
  simp only [hleading, fraction?_of_stops hrest, exponent?_of_stops hrest, h.value, hminus,
    Option.bind_eq_bind, Option.bind_some, Bool.or_self]
  rfl

theorem token?_digit {b : UInt8} (hb : isDigit b) (rest : List UInt8) :
    token? (b :: rest) = unsigned? false (b :: rest) := by
  have hcases : ∀ n < 256, isDigit (UInt8.ofNat n) → punctuation? (UInt8.ofNat n) = none ∧
      UInt8.ofNat n ≠ quoteMark ∧ UInt8.ofNat n ≠ 0x2d := by decide +kernel
  have hdigit := hcases b.toNat b.toNat_lt
  rw [UInt8.ofNat_toNat] at hdigit
  obtain ⟨hpunctuation, hquote, hminus⟩ := hdigit hb
  simp only [token?, hpunctuation, hquote, hb, Bool.or_true, if_true, if_false, number?, hminus]

theorem token?_repr (n : Int) {rest : List UInt8} (hrest : Stops rest) :
    token? (octets n.repr.toList ++ rest) = some (.integer n, rest) := by
  cases n with
  | ofNat n =>
    have htext : octets (Int.ofNat n).repr.toList = decimal n := by
      rw [Int.repr, Nat.toList_repr]
      rfl
    have hspells := spells_decimal n
    obtain ⟨b, tail, hcons⟩ := List.exists_cons_of_ne_nil hspells.ne_nil
    have hb : isDigit b := hspells.digits b (hcons ▸ List.mem_cons_self)
    have hunsigned := hspells.unsigned? hrest false (fun h => by cases h)
    rw [htext]
    rw [hcons] at hunsigned ⊢
    rw [List.cons_append, token?_digit hb]
    exact hunsigned
  | negSucc n =>
    have htext : octets (Int.negSucc n).repr.toList = 0x2d :: decimal (n + 1) := by
      rw [Int.repr, String.toList_append, octets_append, Nat.toList_repr]
      rfl
    have hunsigned := (spells_decimal (n + 1)).unsigned? hrest true fun _ => n.succ_ne_zero
    rw [htext]
    exact hunsigned

/-- Whether the text of a token could go on. -/
def isNumber : Token → Bool
  | .integer _ => true
  | .decimal => true
  | _ => false

/-- The token is what the lexer makes of its text. -/
theorem token?_text {t : Token} (ht : t ≠ .string none) {rest : List UInt8}
    (hrest : isNumber t → Stops rest) : token? (octets t.text.toList ++ rest) = some (t, rest) := by
  cases t with
  | bool b => cases b <;> rfl
  | integer n => exact token?_repr n (hrest rfl)
  | decimal =>
    have hrest := hrest rfl
    have hdigits : digits (0x30 :: rest) = ([0x30], rest) :=
      digits_of_stops (l := [0x30]) (List.all_eq_true.mp rfl) hrest
    have hfraction : fraction? (0x2e :: 0x30 :: rest) = some (true, rest) := by
      simp only [fraction?, if_true, digits1?, hdigits, Option.map_some]
    have hwhole : digits (0x30 :: 0x2e :: 0x30 :: rest) = ([0x30], 0x2e :: 0x30 :: rest) := rfl
    show token? (0x30 :: 0x2e :: 0x30 :: rest) = _
    rw [token?_digit rfl, unsigned?, hwhole]
    simp only [hfraction, exponent?_of_stops hrest, Option.bind_eq_bind, Option.bind_some]
    rfl
  | string text =>
    cases text with
    | none => exact absurd rfl ht
    | some s => exact token?_quote s rest
  | _ => rfl

/-! ### Runs of tokens -/

theorem tokens?_blank {b : UInt8} (hb : isBlank b) (rest : List UInt8) :
    tokens? (b :: rest) = tokens? rest := by
  rw [tokens?, if_pos hb]

theorem tokens?_blanks {l : List UInt8} (hl : ∀ b ∈ l, isBlank b) (rest : List UInt8) :
    tokens? (l ++ rest) = tokens? rest := by
  induction l with
  | nil => rfl
  | cons b l ih =>
    rw [List.forall_mem_cons] at hl
    rw [List.cons_append, tokens?_blank hl.1, ih hl.2]

theorem not_isBlank_of_token? {b : UInt8} {rest rest' : List UInt8} {t : Token}
    (h : token? (b :: rest) = some (t, rest')) : ¬ isBlank b := by
  intro hb
  simp only [isBlank, Bool.or_eq_true, beq_iff_eq] at hb
  rcases hb with ((rfl | rfl) | rfl) | rfl <;> cases h

theorem tokens?_of_token? {l rest : List UInt8} {t : Token} (h : token? l = some (t, rest)) :
    tokens? l = (tokens? rest).map (t :: ·) := by
  cases l with
  | nil => cases h
  | cons b l =>
    rw [tokens?, if_neg (not_isBlank_of_token? h)]
    split
    next heq => rw [h] at heq; cases heq
    next heq => rw [h] at heq; cases heq; rfl

end StaticCalls.Json.Lexer
