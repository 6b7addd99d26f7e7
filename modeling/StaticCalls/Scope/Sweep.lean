import StaticCalls.Extraction.Partition

/-! Which body encloses each candidate reference of a document. Bodies and references are taken in
the order of their starts. A body opens when the sweep passes its start; a reference closes the
open bodies that do not contain it, from the innermost on, and belongs to the first one that
does. -/
namespace StaticCalls

/-- The span that a scoped definition covers. -/
structure Body where
  symbol : String
  range : SourceRange
deriving DecidableEq, Repr

namespace Body

/-- Of two bodies that start together the wider one opens first. -/
def order (a b : Body) : Ordering :=
  (compare a.range.start b.range.start).then
    ((compare b.range.stop a.range.stop).then (compare a.symbol b.symbol))

end Body

namespace Mention

def order (a b : Mention) : Ordering :=
  (compare a.range.start b.range.start).then
    ((compare a.range.stop b.range.stop).then (compare a.symbol b.symbol))

end Mention

/-- The bodies still to open, in opening order, and the open ones, innermost first. -/
structure Sweep where
  upcoming : List Body
  active : List Body

namespace Sweep

def opens (r : SourceRange) (b : Body) : Bool := b.range.start ≤ r.start

/-- The sweep after it has come to a reference with range `r`. -/
def advance (s : Sweep) (r : SourceRange) : Sweep where
  upcoming := s.upcoming.dropWhile (opens r)
  active :=
    ((s.upcoming.takeWhile (opens r)).reverse ++ s.active).dropWhile fun b => !b.range.contains r

def owner? (s : Sweep) : Option String := s.active.head?.map Body.symbol

/-- Each reference with the symbol of the body it belongs to. -/
def place (s : Sweep) : List Mention → List (Mention × Option String)
  | [] => []
  | r :: rest =>
      let s := s.advance r.range
      (r, s.owner?) :: s.place rest

end Sweep

/-- The references of one document by the definition that encloses them. Every definition with a
body has an entry; the references outside of all bodies are counted. -/
structure DocumentScopes where
  document : String
  definitions : StringMap Mention
  enclosed : SymbolMentions
  unscoped : Nat

namespace Partition

def bodies (p : Partition) : List Body :=
  (p.definitions.entries.filterMap fun (symbol, m) => m.body?.map fun range => ⟨symbol, range⟩)
    |>.mergeSort fun a b => (a.order b).isLE

def sortedReferences (p : Partition) : List Mention :=
  p.references.mergeSort fun a b => (a.order b).isLE

def placements (p : Partition) : List (Mention × Option String) :=
  Sweep.place ⟨p.bodies, []⟩ p.sortedReferences

def placedUnder (owner : Option String) (placements : List (Mention × Option String)) :
    List Mention :=
  (placements.filter fun placed => placed.2 == owner).map Prod.fst

def resolve (p : Partition) : DocumentScopes :=
  let placements := p.placements
  { document := p.document
    definitions := p.definitions
    enclosed := p.definitions.filterMap fun symbol m =>
      m.body?.map fun _ => placedUnder (some symbol) placements
    unscoped := (placedUnder none placements).length }

theorem get?_enclosed (p : Partition) (symbol : String) : p.resolve.enclosed.get? symbol =
    ((p.definitions.get? symbol).bind Mention.body?).map fun _ =>
      placedUnder (some symbol) p.placements := by
  simp only [resolve, StringMap.get?_filterMap]
  cases p.definitions.get? symbol <;> rfl

end Partition
end StaticCalls
