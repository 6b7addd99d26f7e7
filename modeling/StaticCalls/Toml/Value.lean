/-! TOML values. Numbers and dates are checked when they are read but not kept, for no setting
holds one. -/
namespace StaticCalls.Toml

/-- How a table came to be, which decides what may still be added to it. -/
inductive TableKind where
  /-- Under a header of its own. -/
  | header
  /-- On the way to a header. -/
  | implied
  /-- On the way of a dotted key. -/
  | dotted
  /-- Between braces; closed for good. -/
  | inline
deriving DecidableEq, Repr

inductive Value where
  | string (s : String)
  | bool (b : Bool)
  /-- A number or a date. -/
  | other
  | array (items : List Value)
  | table (kind : TableKind) (entries : List (String × Value))
  /-- Tables under headers in double brackets, in order. -/
  | tables (items : List (List (String × Value)))
deriving Repr

abbrev Entries := List (String × Value)

namespace Entries

def get? (entries : Entries) (key : String) : Option Value := entries.lookup key

/-- Replaces the entry of a key in its place, or adds one at the end. -/
def set (entries : Entries) (key : String) (value : Value) : Entries :=
  match entries with
  | [] => [(key, value)]
  | (k, v) :: rest => if k = key then (key, value) :: rest else (k, v) :: set rest key value

end Entries
end StaticCalls.Toml
