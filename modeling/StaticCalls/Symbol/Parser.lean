import StaticCalls.Symbol.Basic
import StaticCalls.Symbol.Error
import StaticCalls.Text.Alphanumeric
import StaticCalls.Text.Doubled

/-! Reading a symbol. Each header field ends at a single space, a space inside it being doubled.
A descriptor is a name with its punctuation; a name that is no plain identifier stands in
backticks, a backtick inside it being doubled. -/
namespace StaticCalls
namespace ParsedSymbol

def isIdentifierChar (c : Char) : Bool :=
  Text.isAlphanumeric c || c == '_' || c == '+' || c == '-' || c == '$'

def localMark : List Char := ['l', 'o', 'c', 'a', 'l', ' ']

/-- Local symbols are private to their document and have no parse. -/
def isLocal (symbol : String) : Bool := localMark.isPrefixOf symbol.toList

/-- Why reading stops; `unexpected` keeps what is left to read. -/
inductive Fault where
  | missingField (field : HeaderField)
  | unterminatedEscape
  | unexpected (rest : List Char)

def field (which : HeaderField) (cs : List Char) : Except Fault (String × List Char) :=
  match Text.readDoubled ' ' cs with
  | some (value, rest) => .ok (String.ofList value, rest)
  | none => .error (.missingField which)

def identifier (cs : List Char) : List Char × List Char :=
  (cs.takeWhile isIdentifierChar, cs.dropWhile isIdentifierChar)

def name (cs : List Char) : Except Fault (String × List Char) :=
  match cs with
  | '\x60' :: rest =>
      match Text.readDoubled '\x60' rest with
      | some (name, rest) => .ok (String.ofList name, rest)
      | none => .error .unterminatedEscape
  | cs =>
      match identifier cs with
      | ([], rest) => .error (.unexpected rest)
      | (name, rest) => .ok (String.ofList name, rest)

def expect (c : Char) : List Char → Except Fault (List Char)
  | d :: rest => if d = c then .ok rest else .error (.unexpected (d :: rest))
  | [] => .error (.unexpected [])

/-- The suffixes that one character after the name tells. -/
def suffixMark : Char → Option Suffix
  | '/' => some .nameSpace
  | '#' => some .type
  | '.' => some .term
  | ':' => some .metaName
  | '!' => some .macroName
  | _ => none

def enclosed (close : Char) (suffix : Suffix) (cs : List Char) :
    Except Fault (Descriptor × List Char) := do
  let (name, rest) ← name cs
  let rest ← expect close rest
  return (⟨name, "", suffix⟩, rest)

/-- What may stand after a name: one mark, or the disambiguator of a method. -/
def afterName (name : String) : List Char → Except Fault (Descriptor × List Char)
  | '(' :: rest => do
      let (disambiguator, rest) := identifier rest
      let rest ← expect ')' rest
      let rest ← expect '.' rest
      return (⟨name, String.ofList disambiguator, .method⟩, rest)
  | c :: rest =>
      match suffixMark c with
      | some suffix => .ok (⟨name, "", suffix⟩, rest)
      | none => .error (.unexpected (c :: rest))
  | [] => .error (.unexpected [])

def descriptor : List Char → Except Fault (Descriptor × List Char)
  | '(' :: rest => enclosed ')' .parameter rest
  | '[' :: rest => enclosed ']' .typeParameter rest
  | cs => do
      let (name, rest) ← name cs
      afterName name rest

/-! Each reader leaves less than it was given. -/

theorem length_identifier (cs : List Char) : (identifier cs).2.length ≤ cs.length :=
  (List.dropWhile_sublist _).length_le

theorem length_name {cs rest : List Char} {n : String} (h : name cs = .ok (n, rest)) :
    rest.length ≤ cs.length := by
  unfold name at h
  split at h
  · split at h
    next hn => have := Text.length_readDoubled hn; grind
    next => cases h
  · split at h
    next => cases h
    next hi => have := congrArg (·.2.length) hi; have := length_identifier cs; grind

theorem length_expect {c : Char} {cs rest : List Char} (h : expect c cs = .ok rest) :
    rest.length < cs.length := by
  unfold expect at h
  grind

theorem length_enclosed {close : Char} {suffix : Suffix} {cs rest : List Char} {d : Descriptor}
    (h : enclosed close suffix cs = .ok (d, rest)) : rest.length < cs.length := by
  unfold enclosed at h
  cases hn : name cs with
  | error e => simp [hn, bind, Except.bind] at h
  | ok r =>
    cases he : expect close r.2 with
    | error e => simp [hn, he, bind, Except.bind] at h
    | ok rest' =>
      have := length_name hn
      have := length_expect he
      simp only [hn, he, bind, Except.bind, pure, Except.pure, Except.ok.injEq, Prod.mk.injEq] at h
      obtain ⟨-, rfl⟩ := h
      omega

theorem length_afterName {n : String} {cs rest : List Char} {d : Descriptor}
    (h : afterName n cs = .ok (d, rest)) : rest.length < cs.length := by
  unfold afterName at h
  split at h
  next r =>
    have hi := length_identifier r
    cases hc : expect ')' (identifier r).2 with
    | error e => simp [hc, bind, Except.bind] at h
    | ok r' =>
      cases hd : expect '.' r' with
      | error e => simp [hc, hd, bind, Except.bind] at h
      | ok r'' =>
        have := length_expect hc
        have := length_expect hd
        simp only [hc, hd, bind, Except.bind, pure, Except.pure, Except.ok.injEq,
          Prod.mk.injEq] at h
        obtain ⟨-, rfl⟩ := h
        simp only [List.length_cons]
        omega
  next => grind
  next => cases h

theorem length_descriptor {cs rest : List Char} {d : Descriptor}
    (h : descriptor cs = .ok (d, rest)) : rest.length < cs.length := by
  unfold descriptor at h
  split at h
  next => exact Nat.lt_succ_of_lt (length_enclosed h)
  next => exact Nat.lt_succ_of_lt (length_enclosed h)
  next =>
    cases hn : name cs with
    | error e => simp [hn, bind, Except.bind] at h
    | ok r =>
      simp only [hn, bind, Except.bind] at h
      exact Nat.lt_of_lt_of_le (length_afterName h) (length_name hn)

/-- One descriptor after another to the end of the symbol. -/
def path (cs : List Char) : Except Fault (List Descriptor) :=
  if cs = [] then .ok []
  else
    match _h : descriptor cs with
    | .error fault => .error fault
    | .ok (d, rest) =>
        match path rest with
        | .error fault => .error fault
        | .ok ds => .ok (d :: ds)
termination_by cs.length
decreasing_by exact length_descriptor _h

def fields (cs : List Char) : Except Fault (ParsedSymbol × List Char) := do
  let (scheme, cs) ← field .scheme cs
  let (manager, cs) ← field .manager cs
  let (packageName, cs) ← field .packageName cs
  let (version, cs) ← field .version cs
  return (⟨scheme, manager, packageName, version, []⟩, cs)

def Fault.toError (symbol : List Char) : Fault → SymbolError
  | missingField which => .missingField which
  | unterminatedEscape => .unterminatedEscape
  | unexpected rest => .unexpectedCharacter rest.head? (symbol.length - rest.length)

def read (cs : List Char) : Except Fault ParsedSymbol := do
  let (header, rest) ← fields cs
  let descriptors ← path rest
  return { header with descriptors }

def parse (symbol : String) : Except SymbolError ParsedSymbol :=
  if symbol = "" then .error .empty
  else if isLocal symbol then .error .localSymbol
  else
    match read symbol.toList with
    | .error fault => .error (fault.toError symbol.toList)
    | .ok parsed => if parsed.descriptors = [] then .error .noDescriptors else .ok parsed

def lastDescriptor? (parsed : ParsedSymbol) : Option Descriptor := parsed.descriptors.getLast?

end ParsedSymbol

/-- What kind of thing a symbol is: the suffix of its last descriptor. -/
def Suffix.ofSymbol (symbol : String) : Except SymbolError Suffix := do
  let parsed ← ParsedSymbol.parse symbol
  match parsed.lastDescriptor? with
  | some last => return last.suffix
  | none => throw .noDescriptors

end StaticCalls
