import StaticCalls.Config
import StaticCalls.Toml.Document

/-! Settings written in TOML. A section is a table, or an array of its settings in order; what is
missing keeps its default and what is unknown is ignored. -/
namespace StaticCalls
namespace Config
open Toml (Value Entries)

/-- The settings of a section under their names. -/
def sectionEntries? (names : List String) : Value → Option Entries
  | .table _ entries => some entries
  | .array items => some (names.zip items)
  | .tables items => some (names.zip (items.map (Value.table .header)))
  | _ => none

def setting (entries : Entries) (name : String) (default : α) (read : Value → Option α) :
    Option α :=
  match entries.get? name with
  | some v => read v
  | none => some default

def isEmptyContainer : Value → Bool
  | .array [] => true
  | .table _ [] => true
  | _ => false

/-- A name, or a table of that one name with nothing in it. -/
def policyOfToml? : Value → Option ReferencePolicy
  | .string s => ReferencePolicy.ofText? s
  | .table _ [(name, v)] => if isEmptyContainer v then ReferencePolicy.ofText? name else none
  | _ => none

def flagOfToml? : Value → Option Bool
  | .bool b => some b
  | _ => none

def analysisOfToml? (v : Value) : Option AnalysisSection := do
  let entries ← sectionEntries? ["reference_policy", "parallel"] v
  return ⟨← setting entries "reference_policy" .methods policyOfToml?,
    ← setting entries "parallel" true flagOfToml?⟩

def outputOfToml? (v : Value) : Option OutputSection := do
  let entries ← sectionEntries? ["pretty"] v
  return ⟨← setting entries "pretty" true flagOfToml?⟩

def ofToml? (source : String) : Option Config := do
  let root ← Toml.parse? source
  return ⟨← setting root "analysis" {} analysisOfToml?, ← setting root "output" {} outputOfToml?⟩

end Config
end StaticCalls
