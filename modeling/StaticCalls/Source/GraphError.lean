/-! The ways in which an index contradicts itself. Each stops the whole run: a partial call graph
is never handed out. -/
namespace StaticCalls

inductive GraphError where
  | duplicateDefinition (symbol document : String)
  | missingDefinition (symbol : String)
  | missingNode (symbol : String)
  | malformedRange (document : String) (values : List Int32)
deriving DecidableEq, Repr

namespace GraphError

def message : GraphError → String
  | duplicateDefinition symbol document =>
      "Duplicate definition of " ++ symbol ++ " while merging " ++ document
  | missingDefinition symbol => "Definition not registered for " ++ symbol
  | missingNode symbol => "No call graph node for " ++ symbol
  | malformedRange document values =>
      "Malformed range in " ++ document ++ ": [" ++
        ", ".intercalate (values.map fun v => v.toInt.repr) ++ "]"

end GraphError
end StaticCalls
