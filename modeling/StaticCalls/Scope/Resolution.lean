import StaticCalls.Scope.Sweep
import StaticCalls.Source.GraphError
import StaticCalls.Workers

/-! The scopes of all documents in one map. A body with calls cannot span two documents, so two
documents that both enclose references for one symbol contradict each other. Bodies without calls
never collide: the first one stands until a body with calls takes its place. -/
namespace StaticCalls

structure ScopeResolution where
  enclosed : SymbolMentions
  /-- For each key of `enclosed` the definition whose body its entry comes from. -/
  definitions : StringMap Mention
  unscoped : Nat

namespace ScopeResolution

def empty : ScopeResolution := ⟨.empty, .empty, 0⟩

instance : Inhabited ScopeResolution := ⟨empty⟩

/-- The entry of `symbol` becomes `references`, and its definition follows if there is one. -/
def track (r : ScopeResolution) (symbol : String) (references : List Mention)
    (definition : Option Mention) : ScopeResolution :=
  { r with
    enclosed := r.enclosed.insert symbol references
    definitions :=
      match definition with
      | some m => r.definitions.insert symbol m
      | none => r.definitions }

/-- Some earlier document encloses references for the symbol. -/
def isPopulated (r : ScopeResolution) (symbol : String) : Bool :=
  !(r.enclosed.getD symbol []).isEmpty

def addEntry (scopes : DocumentScopes) (r : ScopeResolution) (symbol : String)
    (references : List Mention) : Except GraphError ScopeResolution :=
  let definition := scopes.definitions.get? symbol
  if references.isEmpty then
    if r.enclosed.contains symbol then .ok r else .ok (r.track symbol [] definition)
  else if r.isPopulated symbol then .error (.duplicateDefinition symbol scopes.document)
  else .ok (r.track symbol references definition)

def addDocument (r : ScopeResolution) (scopes : DocumentScopes) :
    Except GraphError ScopeResolution :=
  scopes.enclosed.entries.foldlM (fun r (symbol, references) => r.addEntry scopes symbol references)
    { r with unscoped := r.unscoped + scopes.unscoped }

def merge (scopes : List DocumentScopes) : Except GraphError ScopeResolution :=
  scopes.foldlM addDocument empty

def ofPartitions (partitions : List Partition) (workers : Workers := .one) :
    Except GraphError ScopeResolution :=
  merge (workers.map Partition.resolve partitions)

theorem ofPartitions_eq (partitions : List Partition) (workers : Workers) :
    ofPartitions partitions workers = merge (partitions.map Partition.resolve) := by
  rw [ofPartitions, Workers.map_eq]

end ScopeResolution
end StaticCalls
