import StaticCalls.Text.Quoted

/-! Why a symbol has no parse. An occurrence of such a symbol is skipped, and the run goes on. -/
namespace StaticCalls

/-- The four fields in front of the descriptors. -/
inductive HeaderField where
  | scheme
  | manager
  | packageName
  | version
deriving DecidableEq, Repr

def HeaderField.title : HeaderField → String
  | scheme => "scheme"
  | manager => "package manager"
  | packageName => "package name"
  | version => "version"

/-- An offset counts characters from the start of the symbol; nothing is found at its end. -/
inductive SymbolError where
  | empty
  | localSymbol
  | missingField (field : HeaderField)
  | unterminatedEscape
  | unexpectedCharacter (found : Option Char) (offset : Nat)
  | noDescriptors
deriving DecidableEq, Repr

namespace SymbolError

def foundText : Option Char → String
  | none => "None"
  | some c => "Some(" ++ Text.quoteChar c ++ ")"

def message (symbol : String) : SymbolError → String
  | empty => "empty symbol"
  | localSymbol => "local symbol has no descriptors: " ++ symbol
  | missingField field => "missing " ++ field.title ++ " in symbol: " ++ symbol
  | unterminatedEscape => "unterminated escaped name in symbol: " ++ symbol
  | unexpectedCharacter found offset =>
      "unexpected " ++ foundText found ++ " at offset " ++ offset.repr ++ " in symbol: " ++ symbol
  | noDescriptors => "no descriptors found in symbol: " ++ symbol

end SymbolError
end StaticCalls
