/-! Global symbol identifiers: a package header and a path of descriptors. The suffix of the last
descriptor says what kind of thing the symbol is. -/
namespace StaticCalls

/-- The kinds of descriptor, each told by its own punctuation. -/
inductive Suffix where
  | nameSpace
  | type
  | term
  | method
  | typeParameter
  | parameter
  | metaName
  | macroName
deriving DecidableEq, Repr

namespace Suffix

def text : Suffix → String
  | nameSpace => "namespace"
  | type => "type"
  | term => "term"
  | method => "method"
  | typeParameter => "type_parameter"
  | parameter => "parameter"
  | metaName => "meta"
  | macroName => "macro"

def all : List Suffix :=
  [nameSpace, type, term, method, typeParameter, parameter, metaName, macroName]

def ofText? (text : String) : Option Suffix := all.find? fun s => s.text = text

@[simp] theorem ofText?_text (s : Suffix) : ofText? s.text = some s := by cases s <;> decide

/-- A reference to a symbol of this kind reads as a call. -/
def isCallLike (s : Suffix) : Bool := s == method

end Suffix

structure Descriptor where
  name : String
  /-- Tells overloads of a method apart; empty otherwise. -/
  disambiguator : String
  suffix : Suffix
deriving DecidableEq, Repr

structure ParsedSymbol where
  scheme : String
  manager : String
  packageName : String
  version : String
  descriptors : List Descriptor
deriving DecidableEq, Repr

end StaticCalls
