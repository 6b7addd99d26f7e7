import StaticCalls.Json.Writer
import StaticCalls.Proofs.Json.Lexing

/-! The text of a value is read as the tokens of the value, on one line or on many: what stands
between tokens is blank, and a number always comes before a mark or a blank (`tokens?_write`). -/
namespace StaticCalls.Json.Lexer
open Token

/-- The octets of some tokens, each after its blank. -/
def written (entries : List (String × Token)) : List UInt8 :=
  entries.flatMap fun e => octets e.1.toList ++ octets e.2.text.toList

theorem toList_toUTF8_write (style : Style) (v : Json) :
    (v.write style).toUTF8.toList = written (v.layout style 0 "") := by
  rw [toList_toUTF8, write, String.toList_join]
  generalize v.layout style 0 "" = entries
  induction entries with
  | nil => rfl
  | cons e rest ih =>
    rw [List.map_cons, List.flatMap_cons, octets_append, ih, String.toList_append, octets_append]
    rfl

def IsBlankText (blank : String) : Prop := ∀ b ∈ octets blank.toList, isBlank b

theorem isBlankText_empty : IsBlankText "" := by
  rintro b ⟨⟩

theorem written_cons (blank : String) (t : Token) (entries : List (String × Token)) :
    written ((blank, t) :: entries) =
      octets blank.toList ++ (octets t.text.toList ++ written entries) := by
  rw [written, List.flatMap_cons, List.append_assoc]
  rfl

theorem written_append (entries entries' : List (String × Token)) :
    written (entries ++ entries') = written entries ++ written entries' := List.flatMap_append

/-- The tokens are read off what is written of them. -/
def Lexes (entries : List (String × Token)) (rest : List UInt8) : Prop :=
  tokens? (written entries ++ rest) = (tokens? rest).map (entries.map Prod.snd ++ ·)

theorem lexes_nil (rest : List UInt8) : Lexes [] rest := (congrFun Option.map_id _).symm

theorem lexes_cons {blank : String} {t : Token} {entries : List (String × Token)}
    {rest : List UInt8} (hblank : IsBlankText blank) (ht : t ≠ .string none)
    (hstops : isNumber t → Stops (written entries ++ rest)) (h : Lexes entries rest) :
    Lexes ((blank, t) :: entries) rest := by
  rw [Lexes, written_cons, List.append_assoc, List.append_assoc, tokens?_blanks hblank,
    tokens?_of_token? (token?_text ht hstops), h, Option.map_map]
  rfl

theorem lexes_append {entries entries' : List (String × Token)} {rest : List UInt8}
    (h : Lexes entries (written entries' ++ rest)) (h' : Lexes entries' rest) :
    Lexes (entries ++ entries') rest := by
  rw [Lexes, written_append, List.append_assoc, h, h', Option.map_map]
  congr 1
  funext tokens
  rw [List.map_append, List.append_assoc]
  rfl

theorem stops_cons {b : UInt8} (hb : isDigit b = false ∧ b ≠ 0x2e ∧ b ≠ 0x65 ∧ b ≠ 0x45)
    (rest : List UInt8) : Stops (b :: rest) := by
  rintro _ ⟨⟩
  exact hb

theorem stops_entry {blank : String} {t : Token} {entries : List (String × Token)}
    {rest : List UInt8} (hblank : IsBlankText blank)
    (ht : Stops (octets t.text.toList ++ (written entries ++ rest))) :
    Stops (written ((blank, t) :: entries) ++ rest) := by
  rw [written_cons, List.append_assoc, List.append_assoc]
  cases hoctets : octets blank.toList with
  | nil => exact ht
  | cons b l =>
    have hb := hblank b (hoctets ▸ List.mem_cons_self)
    refine stops_cons ?_ _
    simp only [isBlank, Bool.or_eq_true, beq_iff_eq] at hb
    rcases hb with ((rfl | rfl) | rfl) | rfl <;> decide

/-- A style that puts nothing but blanks between tokens. -/
structure IsBlank (style : Style) : Prop where
  newline : ∀ depth, IsBlankText (style.newline depth)
  gap : IsBlankText style.gap

variable {style : Style}

theorem stops_items (hstyle : IsBlank style) (depth : Nat) (items : List Json)
    (rest : List UInt8) : Stops (written (layout.items style depth items) ++ rest) := by
  cases items <;> rw [layout.items]
  · exact stops_entry (hstyle.newline depth) (stops_cons (by decide) _)
  · exact stops_entry isBlankText_empty (stops_cons (by decide) _)

theorem stops_members (hstyle : IsBlank style) (depth : Nat) (members : List (String × Json))
    (rest : List UInt8) : Stops (written (layout.members style depth members) ++ rest) := by
  cases members <;> rw [layout.members]
  · exact stops_entry (hstyle.newline depth) (stops_cons (by decide) _)
  · exact stops_entry isBlankText_empty (stops_cons (by decide) _)

theorem lexes_single {blank : String} {t : Token} {rest : List UInt8} (hblank : IsBlankText blank)
    (ht : t ≠ .string none) (hrest : Stops rest) : Lexes [(blank, t)] rest :=
  lexes_cons hblank ht (fun _ => hrest) (lexes_nil rest)

/-- A token that is no number is read whatever follows. -/
theorem lexes_mark {blank : String} {t : Token} {entries : List (String × Token)}
    {rest : List UInt8} (hblank : IsBlankText blank) (ht : t ≠ .string none)
    (hmark : isNumber t = false) (h : Lexes entries rest) : Lexes ((blank, t) :: entries) rest :=
  lexes_cons hblank ht (fun hnumber => by rw [hmark] at hnumber; cases hnumber) h

mutual

/-- All tokens of a value are read off its layout. -/
theorem lexes_layout (hstyle : IsBlank style) : (v : Json) → (depth : Nat) → {blank : String} →
    IsBlankText blank → {rest : List UInt8} → Stops rest → Lexes (v.layout style depth blank) rest
  | .null, _, _, hblank, _, hrest => by
    rw [layout]
    exact lexes_single hblank (by decide) hrest
  | .bool b, _, _, hblank, _, hrest => by
    rw [layout]
    exact lexes_single hblank (by rintro ⟨⟩) hrest
  | .integer n, _, _, hblank, _, hrest => by
    rw [layout]
    exact lexes_single hblank (by rintro ⟨⟩) hrest
  | .string s, _, _, hblank, _, hrest => by
    rw [layout]
    exact lexes_single hblank (by rintro ⟨⟩) hrest
  | .skipped, _, _, hblank, _, hrest => by
    rw [layout]
    exact lexes_single hblank (by rintro ⟨⟩) hrest
  | .array [], _, _, hblank, _, _ => by
    rw [layout]
    exact lexes_mark hblank (by decide) rfl
      (lexes_mark isBlankText_empty (by decide) rfl (lexes_nil _))
  | .array (item :: rest), depth, _, hblank, _, _ => by
    rw [layout]
    exact lexes_mark hblank (by decide) rfl (lexes_append
      (lexes_layout hstyle item (depth + 1) (hstyle.newline _) (stops_items hstyle depth rest _))
      (lexes_items hstyle rest depth _))
  | .object [], _, _, hblank, _, _ => by
    rw [layout]
    exact lexes_mark hblank (by decide) rfl
      (lexes_mark isBlankText_empty (by decide) rfl (lexes_nil _))
  | .object ((key, value) :: rest), depth, _, hblank, _, _ => by
    rw [layout]
    exact lexes_mark hblank (by decide) rfl (lexes_mark (hstyle.newline _) (by rintro ⟨⟩) rfl
      (lexes_mark isBlankText_empty (by decide) rfl (lexes_append
        (lexes_layout hstyle value (depth + 1) hstyle.gap (stops_members hstyle depth rest _))
        (lexes_members hstyle rest depth _))))

theorem lexes_items (hstyle : IsBlank style) : (items : List Json) → (depth : Nat) →
    (rest : List UInt8) → Lexes (layout.items style depth items) rest
  | [], depth, _ => by
    rw [layout.items]
    exact lexes_mark (hstyle.newline depth) (by decide) rfl (lexes_nil _)
  | item :: items, depth, rest => by
    rw [layout.items]
    exact lexes_mark isBlankText_empty (by decide) rfl (lexes_append
      (lexes_layout hstyle item (depth + 1) (hstyle.newline _) (stops_items hstyle depth items _))
      (lexes_items hstyle items depth rest))

theorem lexes_members (hstyle : IsBlank style) : (members : List (String × Json)) →
    (depth : Nat) → (rest : List UInt8) → Lexes (layout.members style depth members) rest
  | [], depth, _ => by
    rw [layout.members]
    exact lexes_mark (hstyle.newline depth) (by decide) rfl (lexes_nil _)
  | (_, value) :: members, depth, rest => by
    rw [layout.members]
    exact lexes_mark isBlankText_empty (by decide) rfl (lexes_mark (hstyle.newline _)
      (by rintro ⟨⟩) rfl (lexes_mark isBlankText_empty (by decide) rfl (lexes_append
        (lexes_layout hstyle value (depth + 1) hstyle.gap (stops_members hstyle depth members _))
        (lexes_members hstyle members depth rest))))

end

/-- The tokens of a value are read off its text, whatever the blanks between them are. -/
theorem tokens?_write (hstyle : IsBlank style) (v : Json) :
    tokens? (v.write style).toUTF8.toList = some ((v.layout style 0 "").map Prod.snd) := by
  have hlexes : Lexes (v.layout style 0 "") [] :=
    lexes_layout hstyle v 0 isBlankText_empty (by rintro _ ⟨⟩)
  rw [Lexes, List.append_nil, tokens?, Option.map_some, List.append_nil] at hlexes
  rw [toList_toUTF8_write, hlexes]

theorem isBlank_compact : IsBlank .compact := ⟨fun _ => isBlankText_empty, isBlankText_empty⟩

theorem toList_pushn (c : Char) (n : Nat) : ("".pushn c n).toList = List.replicate n c := by
  rw [String.pushn_eq_repeat_push]
  induction n with
  | zero => rfl
  | succ n ih =>
    rw [Nat.repeat, String.toList_push, ih, List.replicate_succ']

theorem isBlank_pretty : IsBlank .pretty where
  newline depth := by
    have hspaces (n : Nat) : ∀ b ∈ octets (List.replicate n ' '), isBlank b := by
      induction n with
      | zero => rintro _ ⟨⟩
      | succ n ih =>
        rw [List.replicate_succ, octets_cons, List.forall_mem_append]
        exact ⟨List.all_eq_true.mp (by decide), ih⟩
    intro b hb
    rw [Style.pretty, String.toList_append, octets_append, toList_pushn, List.mem_append] at hb
    rcases hb with hnewline | hspace
    · exact List.all_eq_true.mp (by decide) b hnewline
    · exact hspaces _ b hspace
  gap := List.all_eq_true.mp (by decide)

end StaticCalls.Json.Lexer
