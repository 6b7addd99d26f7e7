import StaticCalls.Index.Document
import StaticCalls.StringMap

/-! An occurrence together with the document that holds it, and the call site it stands for. -/
namespace StaticCalls

structure Mention where
  path : String
  occurrence : Occurrence
deriving DecidableEq, Repr

/-- Where a call is and what it targets. Two calls with one site count as the same call. -/
structure CallSite where
  document : String
  symbol : String
  range : SourceRange
deriving DecidableEq, Repr

namespace Mention

abbrev symbol (m : Mention) : String := m.occurrence.symbol

abbrev range (m : Mention) : SourceRange := m.occurrence.range

abbrev body? (m : Mention) : Option SourceRange := m.occurrence.enclosingRange

def site (m : Mention) : CallSite := ⟨m.path, m.symbol, m.range⟩

/-- The short form `symbol@path:line:character` for people to read. -/
def text (m : Mention) : String :=
  m.symbol ++ "@" ++ m.path ++ ":" ++ m.range.start.line.toNat.repr ++ ":" ++
    m.range.start.character.toNat.repr

end Mention

/-- Mentions grouped by symbol. -/
abbrev SymbolMentions := StringMap (List Mention)

end StaticCalls
