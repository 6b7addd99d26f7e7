import StaticCalls.Index.Document
import StaticCalls.Source.GraphError

/-! A SCIP index as it is encoded, as far as the object model needs it: ranges are lists of
numbers and kinds are numbers. -/
namespace StaticCalls.Scip

structure OccurrenceMessage where
  range : List Int32 := []
  symbol : String := ""
  symbolRoles : Int32 := 0
  enclosingRange : List Int32 := []
deriving DecidableEq, Repr

structure SymbolMessage where
  symbol : String := ""
  kind : Int32 := 0
  displayName : String := ""
deriving DecidableEq, Repr

structure DocumentMessage where
  relativePath : String := ""
  occurrences : List OccurrenceMessage := []
  symbols : List SymbolMessage := []
deriving DecidableEq, Repr

structure IndexMessage where
  documents : List DocumentMessage := []
deriving DecidableEq, Repr

/-- The kinds from number 1 on; number 83 is not taken. -/
def kindNames : List String := [
  "Array", "Assertion", "AssociatedType", "Attribute", "Axiom", "Boolean", "Class", "Constant",
  "Constructor", "DataFamily", "Enum", "EnumMember", "Event", "Fact", "Field", "File", "Function",
  "Getter", "Grammar", "Instance", "Interface", "Key", "Lang", "Lemma", "Macro", "Method",
  "MethodReceiver", "Message", "Module", "Namespace", "Null", "Number", "Object", "Operator",
  "Package", "PackageObject", "Parameter", "ParameterLabel", "Pattern", "Predicate", "Property",
  "Protocol", "Quasiquoter", "SelfParameter", "Setter", "Signature", "Subscript", "String",
  "Struct", "Tactic", "Theorem", "ThisParameter", "Trait", "Type", "TypeAlias", "TypeClass",
  "TypeFamily", "TypeParameter", "Union", "Value", "Variable", "Contract", "Error", "Library",
  "Modifier", "AbstractMethod", "MethodSpecification", "ProtocolMethod", "PureVirtualMethod",
  "TraitMethod", "TypeClassMethod", "Accessor", "Delegate", "MethodAlias", "SingletonClass",
  "SingletonMethod", "StaticDataMember", "StaticEvent", "StaticField", "StaticMethod",
  "StaticProperty", "StaticVariable", "", "Extension", "Mixin", "Concept"]

/-- The name of a kind; empty for the unspecified and for unknown ones. -/
def kindName (kind : Int32) : String :=
  if 0 < kind then kindNames.getD (kind.toInt.toNat - 1) "" else ""

def rangeOf (path : String) (values : List Int32) : Except GraphError SourceRange :=
  match SourceRange.ofNumbers? values with
  | some r => .ok r
  | none => .error (.malformedRange path values)

def OccurrenceMessage.toOccurrence (path : String) (o : OccurrenceMessage) :
    Except GraphError Occurrence := do
  let range ← rangeOf path o.range
  let enclosingRange ←
    if o.enclosingRange.isEmpty then pure none else some <$> rangeOf path o.enclosingRange
  return { symbol := o.symbol, roles := ⟨o.symbolRoles⟩, range, enclosingRange }

def SymbolMessage.toInformation (s : SymbolMessage) : SymbolInformation where
  symbol := s.symbol
  kind := kindName s.kind
  displayName := if s.displayName = "" then none else some s.displayName

def DocumentMessage.toDocument (d : DocumentMessage) : Except GraphError Document := do
  return {
    relativePath := d.relativePath
    occurrences := ← d.occurrences.mapM (·.toOccurrence d.relativePath)
    symbols := d.symbols.map SymbolMessage.toInformation }

/-- The first malformed range in document order is the one that is reported. -/
def IndexMessage.toIndex (i : IndexMessage) : Except GraphError Index := do
  return ⟨← i.documents.mapM DocumentMessage.toDocument⟩

/-! ### From the object model -/

def OccurrenceMessage.ofOccurrence? (o : Occurrence) : Option OccurrenceMessage := do
  return {
    range := ← o.range.toNumbers?
    symbol := o.symbol
    symbolRoles := o.roles.bits
    enclosingRange := ← (o.enclosingRange.map SourceRange.toNumbers?).getD (some []) }

/-- Symbol tables are left out. -/
def DocumentMessage.ofDocument? (d : Document) : Option DocumentMessage := do
  return {
    relativePath := d.relativePath
    occurrences := ← d.occurrences.mapM OccurrenceMessage.ofOccurrence? }

/-- None if a coordinate is too large for the encoding. -/
def IndexMessage.ofIndex? (index : Index) : Option IndexMessage := do
  return ⟨← index.documents.mapM DocumentMessage.ofDocument?⟩

end StaticCalls.Scip
