import StaticCalls.Proofs.Except
import StaticCalls.Proofs.Scope.Placements
import StaticCalls.Scope.Resolution

/-! What the scopes take from a document. Of a reference only the site matters, and of a definition
also the body, and references are sorted before anything is done with them. Documents reduced to
that much are merged to the reduced scopes (`ofPartitions_map_reduced`). -/
namespace StaticCalls

namespace Mention
variable {m m' : Mention}

/-- The mention as nothing but a reference. -/
def asReference (m : Mention) : Mention := ⟨m.path, .reference m.symbol m.range⟩

/-- The mention as nothing but a definition. -/
def asDefinition (m : Mention) : Mention := ⟨m.path, .definition m.symbol m.range m.body?⟩

@[simp] theorem symbol_asReference (m : Mention) : m.asReference.symbol = m.symbol := rfl

@[simp] theorem range_asReference (m : Mention) : m.asReference.range = m.range := rfl

theorem asReference_eq_iff : m.asReference = m'.asReference ↔ m.site = m'.site := by
  simp [asReference, site, Occurrence.reference]

theorem order_asReference (m m' : Mention) : m.asReference.order m'.asReference = m.order m' := rfl

end Mention

namespace Sweep

/-- Where a reference goes depends on its range alone. -/
theorem place_map {f : Mention → Mention} (hf : ∀ m, (f m).range = m.range) (s : Sweep)
    (references : List Mention) :
    s.place (references.map f) = (s.place references).map (Prod.map f id) := by
  induction references generalizing s with
  | nil => rfl
  | cons r rest ih =>
    rw [List.map_cons, place, place, hf, ih]
    rfl

end Sweep

/-- The scopes with their mentions as nothing but definitions and references. -/
def DocumentScopes.reduced (d : DocumentScopes) : DocumentScopes :=
  { d with
    definitions := d.definitions.map Mention.asDefinition
    enclosed := d.enclosed.map (List.map Mention.asReference) }

namespace Partition
variable {p : Partition}

/-- What the scopes take from the document. -/
def reduced (p : Partition) : Partition where
  document := p.document
  definitions := p.definitions.map Mention.asDefinition
  references := p.sortedReferences.map Mention.asReference

theorem reduced_eq {p p' : Partition} (hdocument : p.document = p'.document)
    (hdefinitions : p.definitions.map Mention.asDefinition =
      p'.definitions.map Mention.asDefinition)
    (hreferences : p.reduced.references = p'.reduced.references) : p.reduced = p'.reduced := by
  show Partition.mk p.document (p.definitions.map Mention.asDefinition) p.reduced.references = _
  rw [hdocument, hdefinitions, hreferences]
  rfl

theorem placedUnder_map (f : Mention → Mention) (owner : Option String)
    (placements : List (Mention × Option String)) :
    placedUnder owner (placements.map (Prod.map f id)) = (placedUnder owner placements).map f := by
  rw [placedUnder, placedUnder, List.filter_map, List.map_map, List.map_map]
  rfl

theorem bodies_reduced (p : Partition) : p.reduced.bodies = p.bodies := by
  rw [bodies, bodies, reduced, StringMap.entries_map, List.filterMap_map]
  rfl

theorem references_reduced (p : Partition) : p.reduced.references =
    (p.references.map Mention.asReference).mergeSort fun a b => (a.order b).isLE :=
  List.map_mergeSort fun m _ m' _ => congrArg Ordering.isLE (Mention.order_asReference m m').symm

/-- The references of a reduced document are sorted already. -/
theorem sortedReferences_reduced (p : Partition) :
    p.reduced.sortedReferences = p.sortedReferences.map Mention.asReference := by
  apply List.mergeSort_of_pairwise
  exact List.pairwise_map.mpr p.pairwise_sortedReferences

theorem placements_reduced (p : Partition) :
    p.reduced.placements = p.placements.map (Prod.map Mention.asReference id) := by
  rw [placements, placements, bodies_reduced, sortedReferences_reduced]
  exact Sweep.place_map Mention.range_asReference _ _

theorem unscopedReferences_reduced (p : Partition) :
    p.reduced.unscopedReferences = p.unscopedReferences.map Mention.asReference := by
  rw [unscopedReferences, placements_reduced, placedUnder_map]
  rfl

theorem resolve_reduced (p : Partition) : p.reduced.resolve = p.resolve.reduced := by
  have henclosed : p.reduced.resolve.enclosed = p.resolve.reduced.enclosed := by
    refine StringMap.ext_get? fun symbol => ?_
    rw [get?_enclosed, placements_reduced, placedUnder_map, DocumentScopes.reduced,
      StringMap.get?_map, get?_enclosed, Option.map_map]
    simp only [reduced, StringMap.get?_map, Option.bind_map]
    rfl
  have hunscoped : p.reduced.resolve.unscoped = p.resolve.reduced.unscoped := by
    rw [unscoped_resolve, unscopedReferences_reduced, List.length_map]
    rfl
  show DocumentScopes.mk _ _ p.reduced.resolve.enclosed p.reduced.resolve.unscoped = _
  rw [henclosed, hunscoped]
  rfl

end Partition

namespace ScopeResolution
variable {d : DocumentScopes} {r : ScopeResolution}

def reduced (r : ScopeResolution) : ScopeResolution :=
  { r with
    enclosed := r.enclosed.map (List.map Mention.asReference)
    definitions := r.definitions.map Mention.asDefinition }

theorem contains_reduced (r : ScopeResolution) (symbol : String) :
    r.reduced.enclosed.contains symbol = r.enclosed.contains symbol :=
  StringMap.contains_map _ _ _

theorem isPopulated_reduced (r : ScopeResolution) (symbol : String) :
    r.reduced.isPopulated symbol = r.isPopulated symbol := by
  rw [isPopulated, isPopulated, StringMap.getD, StringMap.getD, reduced, StringMap.get?_map]
  cases r.enclosed.get? symbol <;> simp

theorem track_reduced (r : ScopeResolution) (symbol : String) (references : List Mention)
    (definition : Option Mention) :
    r.reduced.track symbol (references.map Mention.asReference)
        (definition.map Mention.asDefinition) =
      (r.track symbol references definition).reduced := by
  cases definition <;> simp [track, reduced, StringMap.map_insert]

theorem addEntry_reduced (r : ScopeResolution) (d : DocumentScopes) (symbol : String)
    (references : List Mention) :
    r.reduced.addEntry d.reduced symbol (references.map Mention.asReference) =
      (r.addEntry d symbol references).map reduced := by
  have hdefinition : d.reduced.definitions.get? symbol =
      (d.definitions.get? symbol).map Mention.asDefinition := StringMap.get?_map _ _ _
  have hempty := track_reduced r symbol [] (d.definitions.get? symbol)
  rw [List.map_nil] at hempty
  simp only [addEntry, List.isEmpty_map, contains_reduced, isPopulated_reduced, hdefinition,
    track_reduced, hempty]
  split
  · split <;> rfl
  · split <;> rfl

theorem addDocument_reduced (r : ScopeResolution) (d : DocumentScopes) :
    r.reduced.addDocument d.reduced = (r.addDocument d).map reduced := by
  have hentries : d.reduced.enclosed.entries =
      d.enclosed.entries.map fun e => (e.1, e.2.map Mention.asReference) :=
    StringMap.entries_map _ _
  rw [addDocument, addDocument, hentries]
  refine foldlM_map_of_comm (h := reduced) ?_ d.enclosed.entries
    { r with unscoped := r.unscoped + d.unscoped }
  exact fun r e => addEntry_reduced r d e.1 e.2

theorem merge_reduced (scopes : List DocumentScopes) :
    merge (scopes.map DocumentScopes.reduced) = (merge scopes).map reduced :=
  foldlM_map_of_comm addDocument_reduced scopes empty

/-- Reduced documents are merged to the reduced scopes. -/
theorem ofPartitions_map_reduced (partitions : List Partition) :
    ofPartitions (partitions.map Partition.reduced) = (ofPartitions partitions).map reduced := by
  rw [ofPartitions_eq, ofPartitions_eq, ← merge_reduced, List.map_map, List.map_map]
  congr 1
  exact List.map_congr_left fun p _ => p.resolve_reduced

end ScopeResolution
end StaticCalls
