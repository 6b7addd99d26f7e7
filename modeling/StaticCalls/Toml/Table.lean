import StaticCalls.Toml.Value

/-! Putting a TOML document together. A table is defined once: by its header, by dotted keys in
one place, or between braces. Headers may pass through tables that exist; dotted keys may pass only
through tables that no header defines. -/
namespace StaticCalls.Toml

/-- What a line of a document says. -/
inductive Line where
  | blank
  | assign (path : List String) (key : String) (value : Value)
  | header (path : List String) (key : String)
  | arrayHeader (path : List String) (key : String)

namespace Entries

/-- Changes the entries at the end of a path. Tables that are missing on the way are made; of
tables under double brackets the last one is entered. -/
def descend (dotted : Bool) (change : TableKind → Entries → Option Entries) (kind : TableKind)
    (entries : Entries) : List String → Option Entries
  | [] => change kind entries
  | key :: path =>
      match entries.get? key with
      | none => do
          let kind := if dotted then .dotted else .implied
          return entries.set key (.table kind (← descend dotted change kind [] path))
      | some (.table kind inner) =>
          if kind = .inline || (dotted && kind = .header) then none
          else do return entries.set key (.table kind (← descend dotted change kind inner path))
      | some (.tables items) =>
          match items.reverse with
          | last :: before => do
              let last ← descend dotted change .header last path
              return entries.set key (.tables (last :: before).reverse)
          | [] => none
      | some _ => none

/-- A new key in a table of its own kind: dotted keys add to dotted tables, plain ones to others. -/
def addKey (path : List String) (key : String) (value : Value) (kind : TableKind)
    (entries : Entries) : Option Entries :=
  if (kind == .dotted) == path.isEmpty then none
  else
    match entries.get? key with
    | some _ => none
    | none => some (entries.set key value)

def assign (path : List String) (key : String) (value : Value) (kind : TableKind)
    (entries : Entries) : Option Entries :=
  descend true (addKey path key value) kind entries path

/-- A header makes a table, or takes over one that other headers imply. -/
def openTable (key : String) (entries : Entries) : Option Entries :=
  match entries.get? key with
  | none => some (entries.set key (.table .header []))
  | some (.table .implied inner) => some (entries.set key (.table .header inner))
  | some _ => none

def openArrayTable (key : String) (entries : Entries) : Option Entries :=
  match entries.get? key with
  | none => some (entries.set key (.tables [[]]))
  | some (.tables items) => some (entries.set key (.tables (items ++ [[]])))
  | some _ => none

/-- The inside of braces: pairs of a dotted key and a value. -/
def ofPairs (pairs : List (List String × String × Value)) : Option Entries :=
  pairs.foldlM (fun entries (path, key, value) => entries.assign path key value .inline) []

end Entries

/-- A document so far, and the table that the next keys belong to. -/
structure Draft where
  root : Entries := []
  current : List String := []

namespace Draft

def add (d : Draft) : Line → Option Draft
  | .blank => some d
  | .assign path key value => do
      let root ← d.root.descend false (Entries.assign path key value) .header d.current
      return { d with root }
  | .header path key => do
      let root ← d.root.descend false (fun _ => Entries.openTable key) .header path
      return { root, current := path ++ [key] }
  | .arrayHeader path key => do
      let root ← d.root.descend false (fun _ => Entries.openArrayTable key) .header path
      return { root, current := path ++ [key] }

end Draft

def ofLines? (lines : List Line) : Option Entries :=
  (lines.foldlM Draft.add {}).map Draft.root

end StaticCalls.Toml
