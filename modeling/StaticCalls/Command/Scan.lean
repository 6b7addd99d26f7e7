/-! Options on a command line. A long option is a word after two hyphens and may bring its value
behind an equals sign; short ones are single letters, which may share one hyphen. Every option but
the repeatable ones is given at most once. -/
namespace StaticCalls.Command

/-- Why the words of a command line ask for no work. -/
inductive Stop where
  | usage
  | help
  | version
deriving DecidableEq, Repr

/-- What an option does to the settings `α`. -/
inductive Effect (α : Type) where
  | set (f : α → α)
  /-- Takes a value, if it can be read. -/
  | read (f : String → Option (α → α))
  | stop (reason : Stop)

structure Rule (α : Type) where
  name : String
  letter : Option Char := none
  repeatable : Bool := false
  effect : Effect α

variable {α β : Type}

def Effect.lift (inside : (α → α) → β → β) : Effect α → Effect β
  | set f => set (inside f)
  | read f => read fun text => (f text).map inside
  | stop reason => stop reason

/-- The same option for settings that hold an `α`. -/
def Rule.lift (inside : (α → α) → β → β) (rule : Rule α) : Rule β :=
  { rule with effect := rule.effect.lift inside }

inductive Word where
  | long (name : String) (value : Option String)
  | short (letters : List Char)
  | plain
deriving DecidableEq, Repr

def Word.ofText (text : String) : Word :=
  match text.toList with
  | ['-'] => plain
  | ['-', '-'] => plain
  | '-' :: '-' :: rest =>
      let value :=
        match rest.dropWhile (· != '=') with
        | _ :: value => some (String.ofList value)
        | [] => none
      long (String.ofList (rest.takeWhile (· != '='))) value
  | '-' :: letters => short letters
  | _ => plain

/-- Only a lone hyphen may begin like an option and be a value. -/
def canBeValue (text : String) : Bool := text = "-" || text.toList.head? != some '-'

/-- Settings as they are read, and the options that may not come again. -/
structure Settings (α : Type) where
  values : α
  given : List String := []

/-- The use of an option, before its effect. -/
def Settings.use (s : Settings α) (rule : Rule α) : Except Stop (Settings α) :=
  if rule.repeatable then .ok s
  else if s.given.contains rule.name then .error .usage
  else .ok { s with given := rule.name :: s.given }

def Settings.apply (s : Settings α) (f : α → α) : Settings α := { s with values := f s.values }

def Settings.useLetters (rules : List (Rule α)) (s : Settings α) :
    List Char → Except Stop (Settings α)
  | [] => .ok s
  | letter :: rest =>
      match rules.find? (·.letter = some letter) with
      | none => .error .usage
      | some rule => do
          let s ← s.use rule
          match rule.effect with
          | .set f => (s.apply f).useLetters rules rest
          | .stop reason => .error reason
          | .read _ => .error .usage

def Settings.give (s : Settings α) (read : String → Option (α → α)) (value : String) :
    Except Stop (Settings α) :=
  match read value with
  | some f => .ok (s.apply f)
  | none => .error .usage

/-- Takes options up to the first word that is none, and leaves the words from there on. -/
def Settings.scan (rules : List (Rule α)) (s : Settings α) :
    List String → Except Stop (Settings α × List String)
  | [] => .ok (s, [])
  | word :: rest =>
      match Word.ofText word with
      | .plain => .ok (s, word :: rest)
      | .short letters => do (← s.useLetters rules letters).scan rules rest
      | .long name value =>
          match rules.find? (·.name = name) with
          | none => .error .usage
          | some rule => do
              let s ← s.use rule
              match rule.effect, value, rest with
              | .set f, none, rest => (s.apply f).scan rules rest
              | .stop reason, none, _ => .error reason
              | .read f, some value, rest => do (← s.give f value).scan rules rest
              | .read f, none, value :: rest =>
                  if canBeValue value then do (← s.give f value).scan rules rest
                  else .error .usage
              | _, _, _ => .error .usage

end StaticCalls.Command
