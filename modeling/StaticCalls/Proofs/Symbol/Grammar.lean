import StaticCalls.Proofs.Except
import StaticCalls.Proofs.Text.Doubled
import StaticCalls.Symbol.Parser
import Mathlib.Data.List.TakeWhile

/-! The grammar of global symbols, as the texts that spell a symbol, and the readers against it. A
reader takes what spells its part and leaves the rest, and the punctuation behind a name is what
keeps a longer reading from being possible, so that a text spells at most one symbol
(`parse_eq_ok_iff_spelling`). -/
namespace StaticCalls

open Text ParsedSymbol

/-! ### Spellings -/

/-- A name is written plainly if it is an identifier, and any name may stand in backticks. -/
inductive NameSpelling (name : String) : List Char → Prop where
  | plain (hne : name ≠ "") (hchars : ∀ c ∈ name.toList, isIdentifierChar c) :
      NameSpelling name name.toList
  | escaped : NameSpelling name ('\x60' :: doubled '\x60' name.toList ++ ['\x60'])

/-- The mark behind the name, for the suffixes that need nothing else. -/
def Suffix.mark? : Suffix → Option Char
  | nameSpace => some '/'
  | type => some '#'
  | term => some '.'
  | metaName => some ':'
  | macroName => some '!'
  | method | typeParameter | parameter => none

/-- Only a method has a disambiguator, which may be empty. -/
inductive Descriptor.Spelling : Descriptor → List Char → Prop where
  | marked {name : String} {suffix : Suffix} {text : List Char} {mark : Char}
      (hname : NameSpelling name text) (hmark : suffix.mark? = some mark) :
      Spelling ⟨name, "", suffix⟩ (text ++ [mark])
  | method {name disambiguator : String} {text : List Char} (hname : NameSpelling name text)
      (hchars : ∀ c ∈ disambiguator.toList, isIdentifierChar c) :
      Spelling ⟨name, disambiguator, .method⟩ (text ++ '(' :: disambiguator.toList ++ [')', '.'])
  | typeParameter {name : String} {text : List Char} (hname : NameSpelling name text) :
      Spelling ⟨name, "", .typeParameter⟩ ('[' :: text ++ [']'])
  | parameter {name : String} {text : List Char} (hname : NameSpelling name text) :
      Spelling ⟨name, "", .parameter⟩ ('(' :: text ++ [')'])

/-- Descriptors stand one after the other with nothing in between. -/
inductive PathSpelling : List Descriptor → List Char → Prop where
  | nil : PathSpelling [] []
  | cons {d : Descriptor} {ds : List Descriptor} {front rest : List Char}
      (hd : d.Spelling front) (hds : PathSpelling ds rest) : PathSpelling (d :: ds) (front ++ rest)

/-- A header field with the space that ends it. -/
def fieldText (value : String) : List Char := doubled ' ' value.toList ++ [' ']

/-- The value is there, and it does not begin with a space. -/
def Begins (value : String) : Prop := value ≠ "" ∧ value.toList.head? ≠ some ' '

def headerText (p : ParsedSymbol) : List Char :=
  fieldText p.scheme ++ fieldText p.manager ++ fieldText p.packageName ++ fieldText p.version

/-- Only the scheme may be empty or begin with a space. -/
structure ParsedSymbol.Header (p : ParsedSymbol) : Prop where
  manager : Begins p.manager
  packageName : Begins p.packageName
  version : Begins p.version

/-- How a symbol is written: its header and at least one descriptor. -/
structure ParsedSymbol.Spelling (p : ParsedSymbol) (text : List Char) : Prop where
  header : p.Header
  nonempty : p.descriptors ≠ []
  written : ∃ path, PathSpelling p.descriptors path ∧ text = headerText p ++ path

namespace ParsedSymbol
variable {cs rest text : List Char}

/-! ### Names -/

/-- Neither an identifier nor an escaped name goes on with such a character. -/
def EndsName (c : Char) : Prop := ¬ isIdentifierChar c ∧ c ≠ '\x60'

theorem endsName_of_mark {s : Suffix} {c : Char} (h : s.mark? = some c) : EndsName c := by
  cases s <;> cases h <;> exact ⟨by decide, by decide⟩

theorem identifier_append (htext : ∀ c ∈ text, isIdentifierChar c)
    (hrest : ∀ c ∈ rest.head?, ¬ isIdentifierChar c) :
    identifier (text ++ rest) = (text, rest) := by
  have htake : rest.takeWhile isIdentifierChar = [] := by
    cases rest with
    | nil => rfl
    | cons c rest => exact List.takeWhile_cons_of_neg (hrest c rfl)
  have hdrop : rest.dropWhile isIdentifierChar = rest := by
    cases rest with
    | nil => rfl
    | cons c rest => exact List.dropWhile_cons_of_neg (hrest c rfl)
  rw [identifier, List.takeWhile_append_of_pos htext, List.dropWhile_append_of_pos htext, htake,
    hdrop, List.append_nil]

theorem eq_append_of_identifier (h : identifier cs = (text, rest)) :
    cs = text ++ rest ∧ ∀ c ∈ text, isIdentifierChar c := by
  cases h
  exact ⟨List.takeWhile_append_dropWhile.symm, fun c hc => List.mem_takeWhile_imp hc⟩

theorem not_isIdentifierChar_of_identifier (h : identifier cs = (text, rest)) :
    ∀ c ∈ rest.head?, ¬ isIdentifierChar c := by
  cases h
  intro c hc
  have hhead := List.head?_dropWhile_not isIdentifierChar cs
  rw [Option.mem_def.mp hc] at hhead
  simpa using hhead

theorem name_of_identifier (hne : text ≠ []) (hchars : ∀ c ∈ text, isIdentifierChar c)
    (hrest : ∀ c ∈ rest.head?, ¬ isIdentifierChar c) :
    name (text ++ rest) = .ok (String.ofList text, rest) := by
  have hread := identifier_append hchars hrest
  cases text with
  | nil => exact absurd rfl hne
  | cons c cs =>
    have hc : c ≠ '\x60' := by
      rintro rfl
      exact absurd (hchars _ List.mem_cons_self) (by decide)
    rw [List.cons_append] at hread ⊢
    unfold name
    split
    next heq => exact absurd (List.cons.inj heq).1 hc
    next => rw [hread]

theorem spelling_of_name {n : String} (h : name cs = .ok (n, rest)) :
    ∃ text, NameSpelling n text ∧ cs = text ++ rest := by
  unfold name at h
  split at h
  next cs =>
    split at h
    next name rest' hread =>
      cases h
      obtain ⟨rfl, -⟩ := readDoubled_eq_some_iff.mp hread
      refine ⟨_, .escaped, ?_⟩
      simp
    next => cases h
  next =>
    split at h
    next => cases h
    next name rest' hne hread =>
      cases h
      obtain ⟨rfl, hchars⟩ := eq_append_of_identifier hread
      refine ⟨name, ?_, rfl⟩
      have hplain : NameSpelling (String.ofList name) (String.ofList name).toList :=
        .plain (by simpa using hne) (by simpa using hchars)
      simpa using hplain

theorem name_of_spelling {n : String} (h : NameSpelling n text)
    (hrest : ∀ c ∈ rest.head?, EndsName c) : name (text ++ rest) = .ok (n, rest) := by
  cases h with
  | plain hne hchars =>
    have hread := name_of_identifier (by simpa using hne) hchars fun c hc => (hrest c hc).1
    simpa using hread
  | escaped =>
    have hclosed : rest.head? ≠ some '\x60' := fun hmark => (hrest _ hmark).2 rfl
    have hread := readDoubled_doubled n.toList hclosed
    simp only [List.cons_append, List.append_assoc, List.nil_append, name, hread,
      String.ofList_toList]

/-! ### Descriptors -/

theorem expect_eq_ok_iff {c : Char} : expect c cs = .ok rest ↔ cs = c :: rest := by
  cases cs with
  | nil => simp [expect]
  | cons d cs =>
    by_cases h : d = c <;> simp [expect, h]

theorem suffixMark_eq_some_iff {c : Char} {s : Suffix} :
    suffixMark c = some s ↔ s.mark? = some c := by
  constructor
  · intro h
    unfold suffixMark at h
    split at h <;> cases h <;> rfl
  · intro h
    cases s <;> cases h <;> rfl

theorem enclosed_eq_ok_iff {close : Char} {suffix : Suffix} {d : Descriptor} :
    enclosed close suffix cs = .ok (d, rest) ↔
      ∃ n, name cs = .ok (n, close :: rest) ∧ d = ⟨n, "", suffix⟩ := by
  simp only [enclosed, bind_eq_ok_iff, expect_eq_ok_iff, pure, Except.pure, Except.ok.injEq,
    Prod.mk.injEq, Prod.exists]
  constructor
  · rintro ⟨n, _, hname, _, rfl, rfl, rfl⟩
    exact ⟨n, hname, rfl⟩
  · rintro ⟨n, hname, rfl⟩
    exact ⟨n, _, hname, _, rfl, rfl, rfl⟩

theorem spelling_of_enclosed {close : Char} {suffix : Suffix} {d : Descriptor}
    (h : enclosed close suffix cs = .ok (d, rest)) :
    ∃ n text, NameSpelling n text ∧ d = ⟨n, "", suffix⟩ ∧ cs = text ++ close :: rest := by
  obtain ⟨n, hname, rfl⟩ := enclosed_eq_ok_iff.mp h
  obtain ⟨text, hspelling, rfl⟩ := spelling_of_name hname
  exact ⟨n, text, hspelling, rfl, rfl⟩

/-- What stands behind the name of a descriptor that begins with its name. -/
theorem spelling_of_afterName {n : String} {d : Descriptor} (h : afterName n cs = .ok (d, rest))
    (hname : NameSpelling n text) : ∃ tail, d.Spelling (text ++ tail) ∧ cs = tail ++ rest := by
  unfold afterName at h
  split at h
  next cs =>
    rcases hread : identifier cs with ⟨chars, tail⟩
    obtain ⟨rfl, hchars⟩ := eq_append_of_identifier hread
    simp only [hread, bind_eq_ok_iff, expect_eq_ok_iff, pure, Except.pure, Except.ok.injEq,
      Prod.mk.injEq] at h
    obtain ⟨_, rfl, _, rfl, rfl, rfl⟩ := h
    refine ⟨'(' :: chars ++ [')', '.'], ?_, by simp⟩
    have hmethod : Descriptor.Spelling ⟨n, String.ofList chars, .method⟩
        (text ++ '(' :: (String.ofList chars).toList ++ [')', '.']) :=
      .method hname (by simpa using hchars)
    simpa using hmethod
  next c cs _ =>
    split at h
    next suffix hmark =>
      cases h
      exact ⟨[c], .marked hname (suffixMark_eq_some_iff.mp hmark), rfl⟩
    next => cases h
  next => cases h

theorem spelling_of_descriptor {d : Descriptor} (h : descriptor cs = .ok (d, rest)) :
    ∃ text, d.Spelling text ∧ cs = text ++ rest := by
  unfold descriptor at h
  split at h
  next =>
    obtain ⟨n, text, hname, rfl, rfl⟩ := spelling_of_enclosed h
    exact ⟨_, .parameter hname, by simp⟩
  next =>
    obtain ⟨n, text, hname, rfl, rfl⟩ := spelling_of_enclosed h
    exact ⟨_, .typeParameter hname, by simp⟩
  next =>
    obtain ⟨⟨n, _⟩, hname, hafter⟩ := bind_eq_ok_iff.mp h
    obtain ⟨text, hspelling, rfl⟩ := spelling_of_name hname
    obtain ⟨tail, hd, rfl⟩ := spelling_of_afterName hafter hspelling
    exact ⟨_, hd, by simp⟩

theorem afterName_marked {n : String} {s : Suffix} {mark : Char} (h : s.mark? = some mark)
    (rest : List Char) : afterName n (mark :: rest) = .ok (⟨n, "", s⟩, rest) := by
  cases s <;> cases h <;> rfl

theorem afterName_method {n disambiguator : String}
    (hchars : ∀ c ∈ disambiguator.toList, isIdentifierChar c) (rest : List Char) :
    afterName n ('(' :: disambiguator.toList ++ [')', '.'] ++ rest) =
      .ok (⟨n, disambiguator, .method⟩, rest) := by
  have hread : identifier (disambiguator.toList ++ ')' :: '.' :: rest) =
      (disambiguator.toList, ')' :: '.' :: rest) :=
    identifier_append hchars fun c hc => by
      cases hc
      decide
  have htext : '(' :: disambiguator.toList ++ [')', '.'] ++ rest =
      '(' :: (disambiguator.toList ++ ')' :: '.' :: rest) := by simp
  rw [htext]
  simp only [afterName, hread, bind_eq_ok_iff, expect_eq_ok_iff, String.ofList_toList]
  exact ⟨_, rfl, _, rfl, rfl⟩

theorem enclosed_of_spelling {n : String} {close : Char} (hname : NameSpelling n text)
    (hclose : EndsName close) (suffix : Suffix) (rest : List Char) :
    enclosed close suffix (text ++ close :: rest) = .ok (⟨n, "", suffix⟩, rest) := by
  refine enclosed_eq_ok_iff.mpr ⟨n, name_of_spelling hname fun c hc => ?_, rfl⟩
  cases hc
  exact hclose

/-- A name does not begin with the punctuation that may open a descriptor. -/
theorem exists_cons_of_nameSpelling {n : String} (h : NameSpelling n text) :
    ∃ c cs, text = c :: cs ∧ c ≠ ' ' ∧ c ≠ '(' ∧ c ≠ '[' := by
  cases h with
  | plain hne hchars =>
    cases hn : n.toList with
    | nil => exact absurd (String.toList_eq_nil_iff.mp hn) hne
    | cons c cs =>
      rw [hn, List.forall_mem_cons] at hchars
      refine ⟨c, cs, rfl, ?_, ?_, ?_⟩ <;> rintro rfl <;> exact absurd hchars.1 (by decide)
  | escaped => exact ⟨_, _, rfl, by decide, by decide, by decide⟩

theorem descriptor_of_head? (hparenthesis : cs.head? ≠ some '(') (hbracket : cs.head? ≠ some '[') :
    descriptor cs = name cs >>= fun r => afterName r.1 r.2 := by
  unfold descriptor
  split
  next => exact absurd rfl hparenthesis
  next => exact absurd rfl hbracket
  next => rfl

theorem descriptor_of_name {n : String} (hname : NameSpelling n text)
    (hrest : ∀ c ∈ rest.head?, EndsName c) : descriptor (text ++ rest) = afterName n rest := by
  have hread := name_of_spelling hname hrest
  obtain ⟨c, cs, rfl, -, hparenthesis, hbracket⟩ := exists_cons_of_nameSpelling hname
  rw [descriptor_of_head? (by simpa using hparenthesis) (by simpa using hbracket), hread]
  rfl

theorem descriptor_of_spelling {d : Descriptor} (h : d.Spelling text) (rest : List Char) :
    descriptor (text ++ rest) = .ok (d, rest) := by
  cases h with
  | marked hname hmark =>
    rw [List.append_assoc, descriptor_of_name hname fun c hc => ?_]
    · exact afterName_marked hmark rest
    · cases hc
      exact endsName_of_mark hmark
  | method hname hchars =>
    rw [List.append_assoc, List.append_assoc, descriptor_of_name hname fun c hc => ?_]
    · rw [← List.append_assoc]
      exact afterName_method hchars rest
    · cases hc
      exact ⟨by decide, by decide⟩
  | typeParameter hname =>
    have hclose : EndsName ']' := ⟨by decide, by decide⟩
    have hread := enclosed_of_spelling hname hclose .typeParameter rest
    simpa [descriptor] using hread
  | parameter hname =>
    have hclose : EndsName ')' := ⟨by decide, by decide⟩
    have hread := enclosed_of_spelling hname hclose .parameter rest
    simpa [descriptor] using hread

theorem descriptor_eq_ok_iff {d : Descriptor} :
    descriptor cs = .ok (d, rest) ↔ ∃ text, d.Spelling text ∧ cs = text ++ rest := by
  constructor
  · exact spelling_of_descriptor
  · rintro ⟨text, hd, rfl⟩
    exact descriptor_of_spelling hd rest

/-! ### Paths -/

theorem exists_cons_of_spelling {d : Descriptor} (h : d.Spelling text) :
    ∃ c cs, text = c :: cs ∧ c ≠ ' ' := by
  cases h with
  | marked hname _ =>
    obtain ⟨c, cs, rfl, hc, -⟩ := exists_cons_of_nameSpelling hname
    exact ⟨c, _, rfl, hc⟩
  | method hname _ =>
    obtain ⟨c, cs, rfl, hc, -⟩ := exists_cons_of_nameSpelling hname
    exact ⟨c, _, rfl, hc⟩
  | typeParameter _ => exact ⟨_, _, rfl, by decide⟩
  | parameter _ => exact ⟨_, _, rfl, by decide⟩

theorem path_eq_ok_iff {ds : List Descriptor} : path cs = .ok ds ↔ PathSpelling ds cs := by
  constructor
  · intro h
    fun_induction path cs generalizing ds with
    | case1 =>
      cases h
      exact .nil
    | case2 => cases h
    | case3 => cases h
    | case4 cs _ d rest hread ds' hpath ih =>
      cases h
      obtain ⟨text, hd, rfl⟩ := descriptor_eq_ok_iff.mp hread
      exact .cons hd (ih hpath)
  · intro h
    induction h with
    | nil =>
      rw [path]
      rfl
    | @cons d ds front rest hd _ ih =>
      obtain ⟨c, cs, hfront, -⟩ := exists_cons_of_spelling hd
      have hne : front ++ rest ≠ [] := by simp [hfront]
      rw [path, if_neg hne]
      split
      next heq =>
        rw [descriptor_of_spelling hd rest] at heq
        cases heq
      next heq =>
        rw [descriptor_of_spelling hd rest] at heq
        cases heq
        rw [ih]

theorem head?_of_pathSpelling {ds : List Descriptor} (h : PathSpelling ds text) :
    text.head? ≠ some ' ' := by
  cases h with
  | nil => simp
  | cons hd _ =>
    obtain ⟨c, cs, rfl, hc⟩ := exists_cons_of_spelling hd
    simpa using hc

/-! ### The header -/

theorem field_eq_ok_iff {which : HeaderField} {value : String} :
    field which cs = .ok (value, rest) ↔ cs = fieldText value ++ rest ∧ rest.head? ≠ some ' ' := by
  rw [fieldText, List.append_assoc, List.singleton_append, ← readDoubled_eq_some_iff]
  unfold field
  split
  next text rest' hread =>
    have hvalue : String.ofList text = value ↔ text = value.toList := by
      rw [← String.toList_inj, String.toList_ofList]
    rw [hread]
    simp only [Except.ok.injEq, Prod.mk.injEq, Option.some.injEq, hvalue]
  next hread => simp [hread]

theorem head?_fieldText_append_iff (value : String) (rest : List Char) :
    (fieldText value ++ rest).head? ≠ some ' ' ↔ Begins value := by
  rw [fieldText, Begins, List.append_assoc]
  cases hvalue : value.toList with
  | nil => simp [doubled, String.toList_eq_nil_iff.mp hvalue]
  | cons c cs =>
    have hne : value ≠ "" := by
      rintro rfl
      cases hvalue
    simp [head?_doubled, hne]

theorem fields_eq_ok_iff {p : ParsedSymbol} : fields cs = .ok (p, rest) ↔
    p.descriptors = [] ∧ p.Header ∧ rest.head? ≠ some ' ' ∧ cs = headerText p ++ rest := by
  simp only [fields, bind_eq_ok_iff, field_eq_ok_iff, Prod.exists, pure, Except.pure,
    Except.ok.injEq, Prod.mk.injEq]
  constructor
  · rintro ⟨scheme, _, ⟨rfl, hscheme⟩, manager, _, ⟨rfl, hmanager⟩, package, _, ⟨rfl, hpackage⟩,
      version, _, ⟨rfl, hversion⟩, rfl, rfl⟩
    rw [head?_fieldText_append_iff] at hscheme hmanager hpackage
    exact ⟨rfl, ⟨hscheme, hmanager, hpackage⟩, hversion, by simp [headerText]⟩
  · rintro ⟨hnil, ⟨hmanager, hpackage, hversion⟩, hrest, rfl⟩
    obtain ⟨scheme, manager, package, version, descriptors⟩ := p
    cases hnil
    have hnext {value : String} (h : Begins value) (rest : List Char) :=
      (head?_fieldText_append_iff value rest).mpr h
    exact ⟨scheme, _, ⟨by simp only [headerText, List.append_assoc], hnext hmanager _⟩,
      manager, _, ⟨rfl, hnext hpackage _⟩, package, _, ⟨rfl, hnext hversion _⟩,
      version, _, ⟨rfl, hrest⟩, rfl, rfl⟩

theorem read_eq_ok_iff {p : ParsedSymbol} : read cs = .ok p ↔
    p.Header ∧ ∃ path, PathSpelling p.descriptors path ∧ cs = headerText p ++ path := by
  simp only [read, bind_eq_ok_iff, Prod.exists, fields_eq_ok_iff, path_eq_ok_iff, pure, Except.pure,
    Except.ok.injEq]
  constructor
  · rintro ⟨header, path, ⟨_, hheader, _, rfl⟩, ds, hpath, rfl⟩
    exact ⟨⟨hheader.manager, hheader.packageName, hheader.version⟩, path, hpath, rfl⟩
  · rintro ⟨hheader, path, hpath, rfl⟩
    refine ⟨{ p with descriptors := [] }, path, ⟨rfl, ?_, head?_of_pathSpelling hpath, rfl⟩,
      p.descriptors, hpath, rfl⟩
    exact ⟨hheader.manager, hheader.packageName, hheader.version⟩

theorem read_of_parse {symbol : String} {p : ParsedSymbol} (h : parse symbol = .ok p) :
    read symbol.toList = .ok p := by
  unfold parse at h
  split at h
  next => cases h
  next =>
    split at h
    next => cases h
    next =>
      split at h
      next => cases h
      next parsed hread =>
        split at h
        next => cases h
        next =>
          cases h
          exact hread

theorem isLocal_iff {symbol : String} : isLocal symbol ↔ "local ".toList <+: symbol.toList :=
  List.isPrefixOf_iff_prefix

/-- A text that is not local has a parse exactly if it spells a symbol, and the parse is what it
spells. -/
theorem parse_eq_ok_iff_spelling (symbol : String) (p : ParsedSymbol) :
    parse symbol = .ok p ↔ ¬ "local ".toList <+: symbol.toList ∧ p.Spelling symbol.toList := by
  rw [← isLocal_iff]
  constructor
  · intro h
    unfold parse at h
    split at h
    next => cases h
    next =>
      split at h
      next => cases h
      next hglobal =>
        split at h
        next => cases h
        next parsed hread =>
          split at h
          next => cases h
          next hne =>
            cases h
            obtain ⟨hheader, hwritten⟩ := read_eq_ok_iff.mp hread
            exact ⟨hglobal, hheader, hne, hwritten⟩
  · rintro ⟨hglobal, hheader, hne, hwritten⟩
    have hread := read_eq_ok_iff.mpr ⟨hheader, hwritten⟩
    have hsymbol : symbol ≠ "" := by
      rintro rfl
      obtain ⟨path, _, htext⟩ := hwritten
      simp [headerText, fieldText] at htext
    simp only [parse, if_neg hsymbol, if_neg hglobal, hread, if_neg hne]

example : parse "go  mod . pkg v1 `a``b`/f(+1)." =
    .ok ⟨"go mod", ".", "pkg", "v1", [⟨"a`b", "", .nameSpace⟩, ⟨"f", "+1", .method⟩]⟩ := by
  decide +kernel

end ParsedSymbol
end StaticCalls
