import StaticCalls.Proofs.Symbol.Grammar

/-! Where reading a symbol stops. A fault stands at the one place it can stand at: the text in front
of it can still go on to something that is read, and with the character at that place nothing can
(`Fault.Pinpoints`). A reader that calls another one takes its faults over behind the text it has
read already (`Fault.Pinpoints.prepend`), and so it goes from names up to whole symbols
(`parse_error_spot`). -/
namespace StaticCalls

open Text ParsedSymbol

namespace ParsedSymbol
variable {α β : Type} {texts texts' : List Char → Prop} {cs rest text more : List Char}
  {reader : List Char → Except Fault α} {reader' : List Char → Except Fault β} {fault : Fault}

/-! ### Beginnings -/

/-- The text can go on to one of these. -/
def BeginsOne (texts : List Char → Prop) (text : List Char) : Prop :=
  ∃ more, texts (text ++ more)

/-- The reader goes through on some text that begins so. -/
def Passes (reader : List Char → Except Fault α) (text : List Char) : Prop :=
  ∃ more a, reader (text ++ more) = .ok a

/-- The fault of a reader of these texts stands where nothing but a mistake can be: what is in front
of it can go on to one of the texts, and with the character in its place the reader does not go
through, not even up to some earlier end. -/
def Fault.Pinpoints (texts : List Char → Prop) (reader : List Char → Except Fault α)
    (cs : List Char) : Fault → Prop
  | .unexpected rest => ∃ front, cs = front ++ rest ∧ BeginsOne texts front ∧
      ∀ c ∈ rest.head?, ¬ Passes reader (front ++ [c])
  | .missingField _ | .unterminatedEscape => BeginsOne texts cs

/-- A fault at the very first character. -/
theorem pinpoints_first (htexts : BeginsOne texts [])
    (hstops : ∀ c ∈ cs.head?, ∀ more a, reader (c :: more) ≠ .ok a) :
    (Fault.unexpected cs).Pinpoints texts reader cs :=
  ⟨[], rfl, htexts, fun c hc ⟨more, a, hread⟩ => hstops c hc more a hread⟩

theorem head?_append_congr (front : List Char) (h : text.head? = rest.head?) :
    (front ++ text).head? = (front ++ rest).head? := by
  rw [List.head?_append, h, ← List.head?_append]

/-- A fault behind a text that is read already is also one of the reader that has read it. -/
theorem Fault.Pinpoints.prepend (h : fault.Pinpoints texts reader cs)
    (pre : List Char) (htexts : ∀ text, texts text → BeginsOne texts' (pre ++ text))
    (hreader : ∀ text b, text.head? = cs.head? → reader' (pre ++ text) = .ok b →
      ∃ a, reader text = .ok a) : fault.Pinpoints texts' reader' (pre ++ cs) := by
  have hbegins (text : List Char) (h : BeginsOne texts text) : BeginsOne texts' (pre ++ text) := by
    obtain ⟨more, htext⟩ := h
    obtain ⟨more', htext'⟩ := htexts _ htext
    exact ⟨more ++ more', by simpa using htext'⟩
  cases fault with
  | unexpected rest =>
    obtain ⟨front, rfl, hfront, hstops⟩ := h
    refine ⟨pre ++ front, (List.append_assoc ..).symm, hbegins _ hfront, ?_⟩
    rintro c hc ⟨more, b, hread⟩
    have hhead : (front ++ c :: more).head? = (front ++ rest).head? :=
      head?_append_congr front hc.symm
    obtain ⟨a, ha⟩ := hreader _ b hhead (by simpa using hread)
    exact hstops c hc ⟨more, a, by simpa using ha⟩
  | missingField | unterminatedEscape => exact hbegins _ h

/-! ### Names -/

/-- Only the character behind a name matters to it. That need not be one that ends every name
(`EndsName`): a backtick ends an identifier, and a letter ends a name in backticks. -/
theorem name_append_of_head? {n : String} (h : name (text ++ cs) = .ok (n, cs))
    (hhead : rest.head? = cs.head?) : name (text ++ rest) = .ok (n, rest) := by
  generalize hall : text ++ cs = all at h
  unfold name at h
  split at h
  next =>
    split at h
    next name _ hread =>
      cases h
      obtain ⟨rfl, hclosed⟩ := readDoubled_eq_some_iff.mp hread
      have htext : text = '\x60' :: doubled '\x60' name ++ ['\x60'] :=
        List.append_cancel_right (hall.trans (by simp))
      have hagain := readDoubled_doubled name (hhead ▸ hclosed)
      subst htext
      simp [ParsedSymbol.name, hagain]
    next => cases h
  next =>
    split at h
    next => cases h
    next name _ hne hread =>
      cases h
      obtain ⟨hname, hchars⟩ := eq_append_of_identifier hread
      obtain rfl : text = name := List.append_cancel_right (hall.trans hname)
      exact name_of_identifier (by simpa using hne) hchars
        (hhead ▸ not_isIdentifierChar_of_identifier hread)

theorem head_of_name {n : String} {c : Char} (h : name (c :: cs) = .ok (n, rest)) :
    isIdentifierChar c ∨ c = '\x60' := by
  obtain ⟨text, hname, htext⟩ := spelling_of_name h
  cases hname with
  | plain hne hchars =>
    cases hn : n.toList with
    | nil => exact absurd (String.toList_eq_nil_iff.mp hn) hne
    | cons d ds =>
      rw [hn, List.cons_append] at htext
      cases htext
      exact .inl (hchars _ (hn ▸ List.mem_cons_self))
  | escaped =>
    cases htext
    exact .inr rfl

/-- A single letter is a name. -/
theorem nameSpelling_x : NameSpelling "x" ['x'] := by
  refine .plain (by decide) fun c hc => ?_
  have hletter : isIdentifierChar 'x' := by
    simp [isIdentifierChar, isAlphanumeric_of_isAlphanum]
  rwa [List.mem_singleton.mp hc]

theorem pinpoints_name (h : name cs = .error fault) :
    fault.Pinpoints (fun text => ∃ n, NameSpelling n text) name cs := by
  unfold name at h
  split at h
  next cs =>
    split at h
    next => cases h
    next hread =>
      cases h
      obtain ⟨text, rfl⟩ := exists_eq_doubled_of_readDoubled hread
      have hescaped : NameSpelling (String.ofList text)
          ('\x60' :: doubled '\x60' (String.ofList text).toList ++ ['\x60']) := .escaped
      exact ⟨['\x60'], _, by simpa using hescaped⟩
  next hquote =>
    split at h
    next rest hread =>
      cases h
      obtain ⟨rfl, -⟩ := eq_append_of_identifier hread
      have hnone := not_isIdentifierChar_of_identifier hread
      refine pinpoints_first ⟨['x'], "x", nameSpelling_x⟩ ?_
      rintro c hc more ⟨n, tail⟩ hpass
      rcases head_of_name hpass with hchar | rfl
      · exact hnone c hc hchar
      · obtain ⟨cs, rfl⟩ := List.head?_eq_some_iff.mp hc
        exact hquote cs rfl
    next => cases h

/-! ### Descriptors -/

theorem pinpoints_expect {c : Char} (h : expect c cs = .error fault) :
    fault.Pinpoints (· = [c]) (expect c) cs := by
  have hstops (d : Char) (hd : d ≠ c) (more tail : List Char) :
      expect c (d :: more) ≠ .ok tail := by
    rw [ne_eq, expect_eq_ok_iff]
    rintro ⟨⟩
    exact hd rfl
  cases cs with
  | nil =>
    cases h
    exact pinpoints_first ⟨[c], rfl⟩ (by simp)
  | cons d cs =>
    rw [expect] at h
    split at h
    next => cases h
    next hd =>
      cases h
      exact pinpoints_first ⟨[c], rfl⟩ (by simpa using hstops d hd)

theorem afterName_parenthesis {n : String} (htext : ∀ c ∈ text, isIdentifierChar c)
    (hrest : ∀ c ∈ rest.head?, ¬ isIdentifierChar c) :
    afterName n ('(' :: text ++ rest) = (do
      let rest ← expect ')' rest
      let rest ← expect '.' rest
      return (⟨n, String.ofList text, .method⟩, rest)) := by
  simp only [List.cons_append, afterName, identifier_append htext hrest]

/-- A parenthesis behind a name opens the disambiguator of a method, and each of the two characters
that close it may be the one that is missing. -/
theorem pinpoints_afterName_parenthesis {n : String} (hname : NameSpelling n text)
    (h : afterName n ('(' :: cs) = .error fault) :
    fault.Pinpoints (fun tail => ∃ d : Descriptor, d.Spelling (text ++ tail)) (afterName n)
      ('(' :: cs) := by
  rcases hread : identifier cs with ⟨chars, tail⟩
  obtain ⟨rfl, hchars⟩ := eq_append_of_identifier hread
  have htail := not_isIdentifierChar_of_identifier hread
  have hmethod : Descriptor.Spelling ⟨n, String.ofList chars, .method⟩
      (text ++ '(' :: (String.ofList chars).toList ++ [')', '.']) :=
    .method hname (by simpa using hchars)
  rw [← List.cons_append] at h ⊢
  rw [afterName_parenthesis hchars htail] at h
  rcases bind_eq_error_iff.mp h with hclose | ⟨rest, hclose, hafter⟩
  · refine (pinpoints_expect hclose).prepend _ ?_ ?_
    · rintro _ rfl
      exact ⟨['.'], _, by simpa using hmethod⟩
    · intro tail' d hhead hread
      rw [afterName_parenthesis hchars (hhead ▸ htail)] at hread
      exact exists_eq_ok_of_bind hread
  · obtain rfl := expect_eq_ok_iff.mp hclose
    rcases bind_eq_error_iff.mp hafter with hdot | ⟨_, _, hdone⟩
    · rw [List.append_cons]
      refine (pinpoints_expect hdot).prepend _ ?_ ?_
      · rintro _ rfl
        exact ⟨[], _, by simpa using hmethod⟩
      · intro tail d _ hread
        have htail' : ∀ c ∈ (')' :: tail).head?, ¬ isIdentifierChar c := htail
        rw [← List.append_cons, afterName_parenthesis hchars htail'] at hread
        obtain ⟨_, hclosed, hread⟩ := bind_eq_ok_iff.mp hread
        cases expect_eq_ok_iff.mp hclosed
        exact exists_eq_ok_of_bind hread
    · cases hdone

theorem afterName_of_suffixMark_eq_none {n : String} {c : Char} (hparenthesis : c ≠ '(')
    (hmark : suffixMark c = none) (rest : List Char) :
    afterName n (c :: rest) = .error (.unexpected (c :: rest)) := by
  simp [afterName, hmark]

theorem pinpoints_afterName {n : String} (hname : NameSpelling n text)
    (h : afterName n cs = .error fault) :
    fault.Pinpoints (fun tail => ∃ d : Descriptor, d.Spelling (text ++ tail)) (afterName n) cs := by
  have hterm : BeginsOne (fun tail => ∃ d : Descriptor, d.Spelling (text ++ tail)) [] :=
    ⟨['.'], ⟨n, "", .term⟩, .marked hname rfl⟩
  cases cs with
  | nil =>
    cases h
    exact pinpoints_first hterm (by simp)
  | cons c cs =>
    by_cases hparenthesis : c = '('
    · subst hparenthesis
      exact pinpoints_afterName_parenthesis hname h
    · cases hmark : suffixMark c with
      | some suffix =>
        rw [afterName_marked (suffixMark_eq_some_iff.mp hmark)] at h
        cases h
      | none =>
        have hnone := afterName_of_suffixMark_eq_none (n := n) hparenthesis hmark
        rw [hnone] at h
        cases h
        refine pinpoints_first hterm ?_
        rintro _ ⟨⟩ more d hread
        rw [hnone] at hread
        cases hread

/-- A name between brackets, as the descriptor that the opening one tells. -/
theorem pinpoints_enclosed {opening close : Char} {suffix : Suffix}
    (hopens : ∀ cs, descriptor (opening :: cs) = enclosed close suffix cs)
    (hspelling : ∀ n text, NameSpelling n text →
      Descriptor.Spelling ⟨n, "", suffix⟩ (opening :: text ++ [close]))
    (h : enclosed close suffix cs = .error fault) :
    fault.Pinpoints (fun text => ∃ d : Descriptor, d.Spelling text) descriptor (opening :: cs) := by
  rcases bind_eq_error_iff.mp h with hname | ⟨⟨n, rest⟩, hname, hafter⟩
  · refine (pinpoints_name hname).prepend [opening] ?_ ?_
    · rintro text ⟨n, hn⟩
      exact ⟨[close], _, hspelling n text hn⟩
    · intro text d _ hread
      rw [List.singleton_append, hopens] at hread
      exact exists_eq_ok_of_bind hread
  · obtain ⟨text, hn, rfl⟩ := spelling_of_name hname
    rcases bind_eq_error_iff.mp hafter with hclose | ⟨_, _, hdone⟩
    · rw [← List.cons_append]
      refine (pinpoints_expect hclose).prepend _ ?_ ?_
      · rintro _ rfl
        exact ⟨[], _, by simpa using hspelling n text hn⟩
      · intro tail d hhead hread
        rw [List.cons_append, hopens, enclosed, name_append_of_head? hname hhead] at hread
        obtain ⟨_, ⟨⟩, hread⟩ := bind_eq_ok_iff.mp hread
        exact exists_eq_ok_of_bind hread
    · cases hdone

theorem pinpoints_descriptor (h : descriptor cs = .error fault) :
    fault.Pinpoints (fun text => ∃ d : Descriptor, d.Spelling text) descriptor cs := by
  -- The first character tells the kind of descriptor, in every text that begins with it.
  by_cases hparenthesis : cs.head? = some '('
  · obtain ⟨cs, rfl⟩ := List.head?_eq_some_iff.mp hparenthesis
    exact pinpoints_enclosed (fun _ => rfl) (fun _ _ => .parameter) h
  by_cases hbracket : cs.head? = some '['
  · obtain ⟨cs, rfl⟩ := List.head?_eq_some_iff.mp hbracket
    exact pinpoints_enclosed (fun _ => rfl) (fun _ _ => .typeParameter) h
  have hbegin {text : List Char} (hhead : text.head? = cs.head?) :
      descriptor text = name text >>= fun r => afterName r.1 r.2 :=
    descriptor_of_head? (hhead ▸ hparenthesis) (hhead ▸ hbracket)
  rw [hbegin rfl] at h
  rcases bind_eq_error_iff.mp h with hname | ⟨⟨n, rest⟩, hname, hafter⟩
  · refine (pinpoints_name hname).prepend [] ?_ ?_
    · rintro text ⟨n, hn⟩
      exact ⟨['.'], ⟨n, "", .term⟩, .marked hn rfl⟩
    · intro text d hhead hread
      rw [List.nil_append, hbegin hhead] at hread
      exact exists_eq_ok_of_bind hread
  · obtain ⟨text, hn, rfl⟩ := spelling_of_name hname
    refine (pinpoints_afterName hn hafter).prepend _ ?_ ?_
    · intro tail hd
      exact ⟨[], by simpa using hd⟩
    · intro tail d hhead hread
      rw [hbegin (head?_append_congr text hhead), name_append_of_head? hname hhead] at hread
      exact ⟨d, hread⟩

/-! ### Paths -/

theorem pinpoints_path (h : path cs = .error fault) :
    fault.Pinpoints (fun text => ∃ ds, ds ≠ [] ∧ PathSpelling ds text) path cs := by
  fun_induction path cs with
  | case1 => cases h
  | case2 cs hne fault' hread =>
    cases h
    refine (pinpoints_descriptor hread).prepend [] ?_ ?_
    · rintro text ⟨d, hd⟩
      exact ⟨[], [d], List.cons_ne_nil _ _, .cons hd .nil⟩
    · intro text ds hhead hpath
      cases path_eq_ok_iff.mp hpath with
      | nil => exact absurd (List.head?_eq_none_iff.mp hhead.symm) hne
      | cons hd _ => exact ⟨_, descriptor_of_spelling hd _⟩
  | case3 cs hne d rest hread fault' hpath ih =>
    cases h
    obtain ⟨text, hd, rfl⟩ := descriptor_eq_ok_iff.mp hread
    refine (ih hpath).prepend _ ?_ ?_
    · rintro tail ⟨ds, hds, htail⟩
      exact ⟨[], d :: ds, List.cons_ne_nil _ _, by simpa using .cons hd htail⟩
    · intro tail ds _ hpath
      generalize hall : text ++ tail = all at hpath
      cases path_eq_ok_iff.mp hpath with
      | nil =>
        obtain ⟨c, cs, rfl, -⟩ := exists_cons_of_spelling hd
        cases hall
      | @cons _ _ front rest hd' hds =>
        have hsame := descriptor_of_spelling hd tail
        rw [hall, descriptor_of_spelling hd' rest] at hsame
        cases hsame
        exact ⟨_, path_eq_ok_iff.mpr hds⟩
  | case4 => cases h

/-! ### Headers -/

/-- A text that is read as a symbol. -/
def IsSymbol (text : List Char) : Prop := ∃ p, parse (String.ofList text) = .ok p

/-- The descriptors may be any, whichever the header has been read with. -/
theorem isSymbol_of_header {p : ParsedSymbol} (hp : p.Header) {ds : List Descriptor}
    (hds : ds ≠ []) (htext : PathSpelling ds text)
    (hglobal : ¬ localMark <+: headerText p ++ text) : IsSymbol (headerText p ++ text) := by
  have hp' : Header { p with descriptors := ds } := ⟨hp.manager, hp.packageName, hp.version⟩
  have hread : read (headerText p ++ text) = .ok { p with descriptors := ds } :=
    read_eq_ok_iff.mpr ⟨hp', text, htext, rfl⟩
  have hne : String.ofList (headerText p ++ text) ≠ "" := by
    simp [headerText, fieldText]
  have hlocal : ¬ isLocal (String.ofList (headerText p ++ text)) := by
    rwa [isLocal, String.toList_ofList, List.isPrefixOf_iff_prefix]
  refine ⟨{ p with descriptors := ds }, ?_⟩
  rw [parse, if_neg hne, if_neg hlocal, String.toList_ofList, hread]
  exact if_neg hds

theorem le_length_headerText {p : ParsedSymbol} (hp : p.Header) :
    localMark.length ≤ (headerText p).length := by
  have hfield (value : String) : value.toList.length + 1 ≤ (fieldText value).length := by
    rw [fieldText, List.length_append]
    exact Nat.succ_le_succ (length_le_length_doubled ' ' value.toList)
  have hbegins {value : String} (h : Begins value) : 2 ≤ (fieldText value).length := by
    have hpos : 0 < value.toList.length :=
      List.length_pos_iff.mpr fun hnil => h.1 (String.toList_eq_nil_iff.mp hnil)
    have := hfield value
    omega
  have hscheme := hfield p.scheme
  have hmanager := hbegins hp.manager
  have hpackage := hbegins hp.packageName
  have hversion := hbegins hp.version
  simp only [localMark, headerText, List.length_append, List.length_cons, List.length_nil]
  omega

/-- A header is longer than the mark of local symbols, so what follows it cannot make them. -/
theorem global_of_header {p : ParsedSymbol} (hp : p.Header)
    (hglobal : ¬ localMark <+: headerText p ++ rest) (text : List Char) :
    ¬ localMark <+: headerText p ++ text := by
  intro hlocal
  have hheader : localMark <+: headerText p :=
    List.prefix_of_prefix_length_le hlocal (List.prefix_append _ _) (le_length_headerText hp)
  exact hglobal (hheader.trans (List.prefix_append _ _))

theorem prefix_of_prefix_append_cons {l : List Char} {c : Char} (h : l <+: text ++ c :: rest)
    (hc : c ∉ l) : l <+: text := by
  rcases Nat.lt_or_ge text.length l.length with hlt | hge
  · have hextended : text ++ [c] <+: l :=
      List.prefix_of_prefix_length_le ⟨rest, by simp⟩ h (by simpa using Nat.succ_le_of_lt hlt)
    exact absurd (hextended.subset (by simp)) hc
  · exact List.prefix_of_prefix_length_le h (List.prefix_append _ _) hge

theorem isSymbol_of_headerText {p : ParsedSymbol} (hp : p.Header)
    (hglobal : ¬ localMark <+: headerText p ++ ['x', '.']) :
    IsSymbol (headerText p ++ ['x', '.']) := by
  have hx : PathSpelling [⟨"x", "", .term⟩] ['x', '.'] :=
    .cons (.marked nameSpelling_x rfl) .nil
  exact isSymbol_of_header hp (List.cons_ne_nil _ _) hx hglobal

/-- Some header goes on from the text with a letter that no local symbol has. -/
theorem beginsOne_of_headerText {p : ParsedSymbol} (hp : p.Header)
    (htext : text ++ 'x' :: more = headerText p) (hglobal : ¬ localMark <+: text) :
    BeginsOne IsSymbol text := by
  have hwhole : headerText p ++ ['x', '.'] = text ++ 'x' :: (more ++ ['x', '.']) := by
    simp [← htext]
  have hsymbol := isSymbol_of_headerText hp fun hlocal =>
    hglobal (prefix_of_prefix_append_cons (hwhole ▸ hlocal) (by decide))
  exact ⟨_, hwhole ▸ hsymbol⟩

theorem beginsOne_of_no_descriptors {p : ParsedSymbol} (h : read cs = .ok p)
    (hnil : p.descriptors = []) (hglobal : ¬ localMark <+: cs) : BeginsOne IsSymbol cs := by
  obtain ⟨hp, path, hpath, rfl⟩ := read_eq_ok_iff.mp h
  rw [hnil] at hpath
  cases hpath
  refine ⟨['x', '.'], ?_⟩
  rw [List.append_nil]
  exact isSymbol_of_headerText hp (global_of_header hp hglobal _)

/-- A field that does not end is text to its end. A letter behind it leaves its last spaces doubled,
and the space after the letter ends it. -/
theorem exists_fieldText_of_error {which : HeaderField} (h : field which cs = .error fault) :
    fault = .missingField which ∧ ∃ value, cs ++ ['x', ' '] = fieldText value ∧
      (cs.head? ≠ some ' ' → Begins value) := by
  unfold field at h
  split at h
  next => cases h
  next hread =>
    cases h
    obtain ⟨text, rfl⟩ := exists_eq_doubled_of_readDoubled hread
    have hx : doubled ' ' ['x'] = ['x'] := doubled_cons_of_ne (by decide) []
    have hvalue : doubled ' ' text ++ ['x', ' '] = fieldText (String.ofList (text ++ ['x'])) := by
      simp [fieldText, doubled_append, hx]
    refine ⟨rfl, _, hvalue, fun hhead => ⟨by simp, ?_⟩⟩
    rw [head?_doubled] at hhead
    cases text with
    | nil => simp
    | cons c text => simpa using hhead

/-- A field that does not end can end next, and the ones behind it can be any. -/
theorem beginsOne_of_fields_error (h : fields cs = .error fault) (hglobal : ¬ localMark <+: cs) :
    ∃ which, fault = .missingField which ∧ BeginsOne IsSymbol cs := by
  have hx : Begins "x" := ⟨by decide, by decide⟩
  rcases bind_eq_error_iff.mp h with hscheme | ⟨⟨scheme, rest⟩, hscheme, hmanager⟩
  · obtain ⟨rfl, value, hvalue, -⟩ := exists_fieldText_of_error hscheme
    have hp : Header ⟨value, "x", "x", "x", []⟩ := ⟨hx, hx, hx⟩
    exact ⟨_, rfl, beginsOne_of_headerText hp (by simp [headerText, ← hvalue]; rfl) hglobal⟩
  obtain ⟨rfl, hafter⟩ := field_eq_ok_iff.mp hscheme
  rcases bind_eq_error_iff.mp hmanager with hmanager | ⟨⟨manager, rest⟩, hmanager, hpackage⟩
  · obtain ⟨rfl, value, hvalue, hbegins⟩ := exists_fieldText_of_error hmanager
    have hp : Header ⟨scheme, value, "x", "x", []⟩ := ⟨hbegins hafter, hx, hx⟩
    exact ⟨_, rfl, beginsOne_of_headerText hp (by simp [headerText, ← hvalue]; rfl) hglobal⟩
  obtain ⟨rfl, hafter'⟩ := field_eq_ok_iff.mp hmanager
  rw [head?_fieldText_append_iff] at hafter
  rcases bind_eq_error_iff.mp hpackage with hpackage | ⟨⟨package, rest⟩, hpackage, hversion⟩
  · obtain ⟨rfl, value, hvalue, hbegins⟩ := exists_fieldText_of_error hpackage
    have hp : Header ⟨scheme, manager, value, "x", []⟩ := ⟨hafter, hbegins hafter', hx⟩
    exact ⟨_, rfl, beginsOne_of_headerText hp (by simp [headerText, ← hvalue]; rfl) hglobal⟩
  obtain ⟨rfl, hafter''⟩ := field_eq_ok_iff.mp hpackage
  rw [head?_fieldText_append_iff] at hafter'
  rcases bind_eq_error_iff.mp hversion with hversion | ⟨_, _, hdone⟩
  · obtain ⟨rfl, value, hvalue, hbegins⟩ := exists_fieldText_of_error hversion
    have hp : Header ⟨scheme, manager, package, value, []⟩ := ⟨hafter, hafter', hbegins hafter''⟩
    exact ⟨_, rfl, beginsOne_of_headerText hp (by simp [headerText, ← hvalue]; rfl) hglobal⟩
  · cases hdone

/-! ### Symbols -/

theorem pinpoints_read (h : read cs = .error fault) (hglobal : ¬ localMark <+: cs) :
    fault.Pinpoints IsSymbol read cs := by
  rcases bind_eq_error_iff.mp h with hfields | ⟨⟨p, rest⟩, hfields, hpath⟩
  · obtain ⟨which, rfl, hbegins⟩ := beginsOne_of_fields_error hfields hglobal
    exact hbegins
  obtain ⟨hnil, hp, hhead, rfl⟩ := fields_eq_ok_iff.mp hfields
  rcases bind_eq_error_iff.mp hpath with hpath | ⟨_, _, hdone⟩
  · refine (pinpoints_path hpath).prepend _ ?_ ?_
    · rintro text ⟨ds, hds, htext⟩
      have hsymbol : IsSymbol (headerText p ++ text) :=
        isSymbol_of_header hp hds htext (global_of_header hp hglobal text)
      exact ⟨[], by simpa using hsymbol⟩
    · intro text q hsame hread
      have hfields : fields (headerText p ++ text) = .ok (p, text) :=
        fields_eq_ok_iff.mpr ⟨hnil, hp, hsame ▸ hhead, rfl⟩
      rw [read, hfields] at hread
      obtain ⟨_, ⟨⟩, hread⟩ := bind_eq_ok_iff.mp hread
      exact exists_eq_ok_of_bind hread
  · cases hdone

theorem not_beginsOne_of_not_passes (h : ¬ Passes read text) : ¬ BeginsOne IsSymbol text := by
  rintro ⟨more, p, hparse⟩
  have hread := read_of_parse hparse
  rw [String.toList_ofList] at hread
  exact h ⟨more, p, hread⟩

end ParsedSymbol

/-- The place of a character that no symbol can have behind the text in front of it. At the end of
the text nothing is found. -/
structure SymbolError.Spot (symbol : String) (found : Option Char) (offset : Nat) : Prop where
  within : offset ≤ symbol.length
  found_eq : found = symbol.toList[offset]?
  found_eq_none_iff : found = none ↔ offset = symbol.length
  before : BeginsOne IsSymbol (symbol.toList.take offset)
  stops : found ≠ none → ¬ BeginsOne IsSymbol (symbol.toList.take (offset + 1))

namespace ParsedSymbol

theorem spot_of_pinpoints {symbol : String} {rest : List Char}
    (h : (Fault.unexpected rest).Pinpoints IsSymbol read symbol.toList) :
    SymbolError.Spot symbol rest.head? (symbol.toList.length - rest.length) := by
  obtain ⟨front, htext, hfront, hstops⟩ := h
  have hlength : symbol.length = front.length + rest.length := by
    rw [← String.length_toList, htext, List.length_append]
  have hoffset : symbol.toList.length - rest.length = front.length := by
    rw [htext, List.length_append, Nat.add_sub_cancel]
  rw [hoffset]
  refine ⟨by omega, ?_, ?_, ?_, ?_⟩
  · rw [htext, List.getElem?_append_right (Nat.le_refl _), Nat.sub_self, List.head?_eq_getElem?]
  · rw [hlength, List.head?_eq_none_iff, ← List.length_eq_zero_iff]
    omega
  · rwa [htext, List.take_left]
  · intro hfound
    obtain ⟨c, hc⟩ := Option.ne_none_iff_exists'.mp hfound
    obtain ⟨rest', rfl⟩ := List.head?_eq_some_iff.mp hc
    have htake : symbol.toList.take (front.length + 1) = front ++ [c] := by
      rw [htext, List.append_cons, List.take_left' (by simp)]
    rw [htake]
    exact not_beginsOne_of_not_passes (hstops c rfl)

/-- The ways to be refused that a text has which is not local. -/
theorem cases_of_parse_error {symbol : String} {e : SymbolError}
    (hglobal : ¬ localMark <+: symbol.toList) (h : parse symbol = .error e) :
    (symbol = "" ∧ e = .empty) ∨
    (∃ fault, read symbol.toList = .error fault ∧ e = fault.toError symbol.toList) ∨
    (∃ p, read symbol.toList = .ok p ∧ p.descriptors = [] ∧ e = .noDescriptors) := by
  unfold parse at h
  split at h
  next hempty =>
    cases h
    exact .inl ⟨hempty, rfl⟩
  next =>
    split at h
    next hlocal => exact absurd (List.isPrefixOf_iff_prefix.mp hlocal) hglobal
    next =>
      split at h
      next fault hread =>
        cases h
        exact .inr (.inl ⟨fault, hread, rfl⟩)
      next p hread =>
        split at h
        next hnil =>
          cases h
          exact .inr (.inr ⟨p, hread, hnil, rfl⟩)
        next => cases h

/-- What is refused is refused at the first character that cannot stand there, and what could
still go on is refused at its end. -/
theorem parse_error_spot (symbol : String) (e : SymbolError)
    (hglobal : ¬ "local ".toList <+: symbol.toList) (h : parse symbol = .error e) :
    (∀ found offset, e = .unexpectedCharacter found offset →
      SymbolError.Spot symbol found offset) ∧
    ((∀ c offset, e ≠ .unexpectedCharacter (some c) offset) →
      BeginsOne IsSymbol symbol.toList) := by
  rcases cases_of_parse_error hglobal h with ⟨rfl, rfl⟩ | ⟨fault, hread, rfl⟩ | ⟨p, hread, hnil, rfl⟩
  · have hfields : fields "".toList = .error (.missingField .scheme) := rfl
    obtain ⟨_, -, hbegins⟩ := beginsOne_of_fields_error hfields hglobal
    exact ⟨by rintro _ _ ⟨⟩, fun _ => hbegins⟩
  · have hpinpoints := pinpoints_read hread hglobal
    cases fault with
    | unexpected rest =>
      have hspot := spot_of_pinpoints hpinpoints
      refine ⟨by rintro _ _ ⟨⟩; exact hspot, fun hnone => ?_⟩
      have hend : rest.head? = none := by
        cases hhead : rest.head? with
        | none => rfl
        | some c => exact absurd (congrArg (SymbolError.unexpectedCharacter · _) hhead) (hnone c _)
      have hbefore := hspot.before
      rwa [hspot.found_eq_none_iff.mp hend, ← String.length_toList, List.take_length] at hbefore
    | missingField | unterminatedEscape => exact ⟨by rintro _ _ ⟨⟩, fun _ => hpinpoints⟩
  · exact ⟨by rintro _ _ ⟨⟩, fun _ => beginsOne_of_no_descriptors hread hnil hglobal⟩

/-- A parenthesis behind a name opens a disambiguator, and a comma cannot stand in it. -/
theorem parse_error_spot_of_comma :
    ¬ "local ".toList <+: "go mod pkg v1 f(x, y).".toList ∧
    parse "go mod pkg v1 f(x, y)." = .error (.unexpectedCharacter (some ',') 17) ∧
    SymbolError.Spot "go mod pkg v1 f(x, y)." (some ',') 17 := by
  have hglobal : ¬ "local ".toList <+: "go mod pkg v1 f(x, y).".toList := by decide
  have h : parse "go mod pkg v1 f(x, y)." = .error (.unexpectedCharacter (some ',') 17) := by
    decide +kernel
  exact ⟨hglobal, h, (parse_error_spot _ _ hglobal h).1 _ _ rfl⟩

end ParsedSymbol
end StaticCalls
