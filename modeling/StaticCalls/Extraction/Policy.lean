import StaticCalls.Symbol.Basic

/-! Which occurrences count as candidate calls. -/
namespace StaticCalls

inductive ReferencePolicy where
  /-- References whose last descriptor is a method. -/
  | methods
  /-- Every occurrence that is no scoped definition. -/
  | any
deriving DecidableEq, Repr, Inhabited

namespace ReferencePolicy

def text : ReferencePolicy → String
  | methods => "methods"
  | any => "any"

def ofText? (text : String) : Option ReferencePolicy :=
  [methods, any].find? fun p => p.text = text

@[simp] theorem ofText?_text (p : ReferencePolicy) : ofText? p.text = some p := by
  cases p <;> decide

def unknownMessage (text : String) : String :=
  "Unknown reference policy: " ++ text ++ ". Use: methods, any"

def accepts : ReferencePolicy → Suffix → Bool
  | methods, suffix => suffix.isCallLike
  | any, _ => true

end ReferencePolicy
end StaticCalls
