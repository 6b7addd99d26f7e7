import StaticCalls.Index.Roles
import StaticCalls.Source.Range

/-! The symbol index: documents, the occurrences of symbols in them, and a table of what is known
about the symbols. -/
namespace StaticCalls

structure Occurrence where
  symbol : String
  roles : SymbolRoles := ∅
  range : SourceRange
  /-- The whole body; only a definition with a lexical body has one. -/
  enclosingRange : Option SourceRange := none
deriving DecidableEq, Repr

namespace Occurrence

def reference (symbol : String) (range : SourceRange) : Occurrence := { symbol, range }

def definition (symbol : String) (range : SourceRange) (enclosingRange : Option SourceRange) :
    Occurrence :=
  { symbol, roles := SymbolRoles.definition, range, enclosingRange }

/-- A definition with a body: the only kind of occurrence that can own calls. -/
def isScopedDefinition (o : Occurrence) : Bool :=
  o.roles.isDefinition && o.enclosingRange.isSome

end Occurrence

/-- Indexers often leave `kind` empty. -/
structure SymbolInformation where
  symbol : String
  kind : String := ""
  displayName : Option String := none
deriving DecidableEq, Repr

structure Document where
  relativePath : String
  occurrences : List Occurrence := []
  symbols : List SymbolInformation := []
deriving DecidableEq, Repr

structure Index where
  documents : List Document := []
deriving DecidableEq, Repr

def Index.occurrenceCount (index : Index) : Nat :=
  (index.documents.flatMap Document.occurrences).length

end StaticCalls
