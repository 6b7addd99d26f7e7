import StaticCalls.Proofs.CallGraph.Calls
import Mathlib.Data.Set.Card

/-! What the tree of a node shows. A site that is skipped because it has been visited stands
elsewhere in the same tree: the sites shown are those visited, in the order of the records, so that
coverage and uniqueness carry over from the walk. -/
namespace StaticCalls

namespace CallTree

/-- All records of a tree, each before those below it. -/
def records : CallTree → List CallTree
  | ⟨symbol, definition, reference, depth, children⟩ =>
      ⟨symbol, definition, reference, depth, children⟩ :: ofAll children
where
  ofAll : List CallTree → List CallTree
    | [] => []
    | t :: rest => t.records ++ ofAll rest

/-- The records below the top one. -/
def descendants (t : CallTree) : List CallTree := records.ofAll t.children

theorem records_eq (t : CallTree) : t.records = t :: t.descendants := by
  cases t
  rw [records]
  rfl

/-- The call that leads to a record: where it is, and the symbol that it targets. -/
def site? (t : CallTree) : Option CallSite :=
  t.reference.map fun r => ⟨r.document, t.symbol, r.range⟩

/-- The sites of all records below the top one. -/
def sites (t : CallTree) : List CallSite := t.descendants.filterMap site?

mutual

theorem size_eq_length_records : (t : CallTree) → t.size = t.records.length
  | ⟨_, _, _, _, children⟩ => by
    simp only [size, records, List.length_cons, sizes_eq_length_ofAll children]

theorem sizes_eq_length_ofAll : (l : List CallTree) → size.sizes l = (records.ofAll l).length
  | [] => rfl
  | t :: rest => by
    simp only [size.sizes, records.ofAll, List.length_append, size_eq_length_records t,
      sizes_eq_length_ofAll rest]

end

end CallTree

namespace CallGraph
open CallTree
variable {g : CallGraph}

/-- A record shows the definition of its node, and its children show calls of the node in order. -/
structure Shows (g : CallGraph) (r : CallTree) (n : Node) : Prop where
  node : g.node? r.symbol = some n
  definition : r.definition = ⟨n.definition.path, n.definition.range, n.definition.body?⟩
  children : (r.children.map site?).Sublist (n.calls.map fun m => some m.site)

/-- What walking on from a record adds to it: the sites of the new records, last first, are those
newly visited. -/
structure Grown (g : CallGraph) (t : CallTree) (pending : List Mention) (visited : List CallSite)
    (t' : CallTree) (visited' : List CallSite) (grown : List CallTree) : Prop where
  result : t' = { t with children := t.children ++ grown }
  inOrder : (grown.map site?).Sublist (pending.map fun m => some m.site)
  visits : visited'.map some = ((records.ofAll grown).map site?).reverse ++ visited.map some
  shows : ∀ r ∈ records.ofAll grown, ∃ n, g.Shows r n

theorem grown_of_descends (hkeyed : g.Keyed) {t t' : CallTree} {pending : List Mention}
    {visited : List CallSite} {store : Unit} {out : Walk.Outcome GraphError Unit CallTree}
    (h : g.planter.Descends t pending visited store out) (hok : out.result = .ok t') :
    ∃ grown, g.Grown t pending visited t' out.visited grown := by
  induction h generalizing t' with
  | @close t visited =>
    cases hok
    refine ⟨[], ?_, List.Sublist.refl _, rfl, ?_⟩
    · cases t
      rw [List.append_nil]
    · simp [records.ofAll]
  | pass _ _ ih =>
    obtain ⟨grown, hgrown⟩ := ih hok
    exact ⟨grown, hgrown.result, hgrown.inOrder.cons _, hgrown.visits, hgrown.shows⟩
  | absent _ henter _ _ =>
    simp only [planter] at henter
    split at henter <;> cases henter
  | refuse _ _ => cases hok
  | @enter t call pending visited _ child result visited' _ out _ henter _ _ ihchild ihrest =>
    obtain ⟨n, hn, rfl⟩ := planter_enter henter
    obtain ⟨below, hbelow⟩ := ihchild rfl
    obtain ⟨after, hafter⟩ := ihrest hok
    -- the record is made out of the node, and its site out of the record
    have hsymbol : n.symbol = call.symbol := hkeyed _ _ hn
    have hresult := hbelow.result
    have hrecords : result.records = result :: records.ofAll below := by
      rw [records_eq, descendants, hresult]
      rfl
    have hsite : result.site? = some call.site := by
      rw [hresult]
      show some (CallSite.mk call.path n.symbol call.range) = _
      rw [hsymbol]
      rfl
    have hshows : g.Shows result n := by
      refine ⟨?_, by rw [hresult]; rfl, ?_⟩
      · rw [hresult]
        show g.node? n.symbol = some n
        rw [hsymbol, hn]
      · rw [hresult]
        exact hbelow.inOrder
    refine ⟨result :: after, ?_, ?_, ?_, ?_⟩
    · rw [hafter.result]
      show ({ t with children := (t.children ++ [result]) ++ after } : CallTree) = _
      rw [List.append_assoc]
      rfl
    · rw [List.map_cons, List.map_cons, hsite]
      exact hafter.inOrder.cons_cons _
    · rw [hafter.visits, hbelow.visits, records.ofAll, hrecords]
      simp [hsite]
    · intro r hr
      rw [records.ofAll, hrecords, List.mem_append, List.mem_cons] at hr
      rcases hr with (rfl | hr) | hr
      · exact ⟨n, hshows⟩
      · exact hbelow.shows r hr
      · exact hafter.shows r hr
  | fail _ _ _ _ => cases hok

/-- On a closed graph every call leads to a record. -/
theorem ok_of_descends (hclosed : g.Closed) {t : CallTree} {pending : List Mention}
    {visited : List CallSite} {store : Unit} {out : Walk.Outcome GraphError Unit CallTree}
    (h : g.planter.Descends t pending visited store out)
    (hpending : ∀ m ∈ pending, g.isBuilt m.symbol) : ∃ t', out.result = .ok t' := by
  induction h with
  | close => exact ⟨_, rfl⟩
  | pass _ _ ih => exact ih (List.forall_mem_cons.mp hpending).2
  | absent _ _ _ ih => exact ih (List.forall_mem_cons.mp hpending).2
  | refuse _ henter =>
    obtain ⟨n, hn⟩ := isBuilt_iff.mp (List.forall_mem_cons.mp hpending).1
    rw [planter_enter_of_node? hn] at henter
    cases henter
  | enter _ _ _ _ _ ihrest => exact ihrest (List.forall_mem_cons.mp hpending).2
  | @fail t call pending visited store child e _ _ _ henter _ ih =>
    obtain ⟨n, hn, rfl⟩ := planter_enter henter
    obtain ⟨t', ht'⟩ := ih fun m hm => hclosed call.symbol m (by
      rw [callsOf_of_node? hn]
      exact hm)
    cases ht'

/-- A tree of `symbol` that leaves no site out and repeats none. -/
structure ShowsAll (g : CallGraph) (symbol : String) (t : CallTree) : Prop where
  top : t.symbol = symbol ∧ t.reference = none
  records : ∀ r ∈ t.records, ∃ n, g.Shows r n
  called : ∀ r ∈ t.descendants, r.site?.isSome
  nodup : t.sites.Nodup
  mem_sites_iff : ∀ x, x ∈ t.sites ↔ x ∈ g.sitesFrom symbol
  size : t.size = 1 + (g.sitesFrom symbol).ncard

theorem ncard_sitesFrom {symbol : String} {sites : List CallSite} (hnodup : sites.Nodup)
    (hmem : ∀ x, x ∈ sites ↔ x ∈ g.sitesFrom symbol) :
    (g.sitesFrom symbol).ncard = sites.length := by
  have hset : g.sitesFrom symbol = sites.toFinset := by
    ext x
    rw [← hmem x]
    simp
  rw [hset, Set.ncard_coe_finset, List.toFinset_card_of_nodup hnodup]

/-- Below the top record, the records of a tree stand in the order in which sites are visited. -/
theorem Grown.map_site? {n : Node} {t : CallTree} {visited : List CallSite} {grown : List CallTree}
    (h : g.Grown (.leaf n none) n.calls [] t visited grown) :
    t.descendants.map site? = visited.reverse.map some := by
  have hvisits := h.visits
  rw [List.map_nil, List.append_nil] at hvisits
  rw [List.map_reverse, hvisits, List.reverse_reverse, h.result]
  rfl

theorem Grown.sites_eq {n : Node} {t : CallTree} {visited : List CallSite} {grown : List CallTree}
    (h : g.Grown (.leaf n none) n.calls [] t visited grown) : t.sites = visited.reverse := by
  calc t.sites = (t.descendants.map site?).filterMap id := by
        rw [List.filterMap_map]
        rfl
    _ = visited.reverse := by
        rw [h.map_site?, List.filterMap_map]
        exact List.filterMap_some

theorem Grown.shows_records {n : Node} {t : CallTree} {visited : List CallSite}
    {grown : List CallTree} (h : g.Grown (.leaf n none) n.calls [] t visited grown)
    (hn : g.node? n.symbol = some n) : ∀ r ∈ t.records, ∃ n, g.Shows r n := by
  intro r hr
  rw [records_eq, List.mem_cons] at hr
  rcases hr with rfl | hr
  · refine ⟨n, ?_, ?_, ?_⟩ <;> rw [h.result]
    · exact hn
    · rfl
    · exact h.inOrder
  · rw [h.result] at hr
    exact h.shows r hr

theorem exists_tree_showsAll (hkeyed : g.Keyed) (hclosed : g.Closed) {symbol : String}
    (hsymbol : g.isBuilt symbol) :
    ∃ t, (g.tree symbol none []).result = .ok (some t) ∧ g.ShowsAll symbol t := by
  obtain ⟨n, hn⟩ := isBuilt_iff.mp hsymbol
  have hkey : n.symbol = symbol := hkeyed symbol n hn
  have hcalls := callsOf_of_node? hn
  obtain ⟨out, hout, hstart⟩ := Walk.start_of_enter (planter_enter_of_node? hn) [] ()
  obtain ⟨t, ht⟩ := ok_of_descends hclosed hout fun m hm => hclosed symbol m (hcalls ▸ hm)
  obtain ⟨grown, hgrown⟩ := grown_of_descends hkeyed hout ht
  have hnodup : t.sites.Nodup := by
    rw [hgrown.sites_eq, List.nodup_reverse]
    exact hout.nodup List.nodup_nil
  have hmem : ∀ x, x ∈ t.sites ↔ x ∈ g.sitesFrom symbol := by
    intro x
    rw [hgrown.sites_eq, List.mem_reverse,
      hout.mem_visited_iff (planter_follows g) (Walk.settled_nil _) ht]
    simp only [← hcalls, below_callsOf_iff, List.not_mem_nil, false_or]
  refine ⟨t, by rw [tree, hstart, ht]; rfl, ?_, ?_, ?_, hnodup, hmem, ?_⟩
  · rw [hgrown.result]
    exact ⟨hkey, rfl⟩
  · exact hgrown.shows_records (by rw [hkey, hn])
  · intro r hr
    have hin : r.site? ∈ t.descendants.map site? := List.mem_map_of_mem hr
    rw [hgrown.map_site?, List.mem_map] at hin
    obtain ⟨x, _, hx⟩ := hin
    rw [← hx]
    rfl
  · have hlength : t.descendants.length = t.sites.length := by
      rw [hgrown.sites_eq, ← List.length_map site?, hgrown.map_site?, List.length_map]
    rw [size_eq_length_records, records_eq, List.length_cons, hlength,
      ncard_sitesFrom hnodup hmem, Nat.add_comm]

/-- In a built graph whose calls all target nodes, the tree of a node exists, and it shows each call
site that is reached from the node exactly once. -/
theorem tree_shows_each_site_once {t : CallTable} (ht : t.Keyed) (hbuild : t.build = .ok g)
    (hclosed : g.Closed) {symbol : String} (hsymbol : g.isBuilt symbol) :
    ∃ tree, (g.tree symbol none []).result = .ok (some tree) ∧ g.ShowsAll symbol tree :=
  exists_tree_showsAll (keyed_of_build ht hbuild) hclosed hsymbol

/-- Two bodies that call each other, one of them from two sites and with one call listed twice; the
other one also calls a third body, which calls itself. -/
def ring : CallTable :=
  let body (symbol : String) (line : UInt32) : String × Mention :=
    (symbol, ⟨"ring", .definition symbol (.ofCoordinates line 0 line 1) none⟩)
  let call (symbol : String) (line : UInt32) : Mention :=
    ⟨"ring", .reference symbol (.ofCoordinates line 0 line 1)⟩
  { definitions := .ofList [body "a" 0, body "b" 10, body "c" 20]
    calls := .ofList [("a", [call "b" 1, call "b" 2, call "b" 1]),
      ("b", [call "a" 11, call "c" 12]), ("c", [call "c" 21])] }

theorem ring_tree_shows_each_site_once :
    ring.Keyed ∧ ∃ g, ring.build = .ok g ∧ g.Closed ∧ g.isBuilt "a" ∧
      ∃ tree, (g.tree "a" none []).result = .ok (some tree) ∧ g.ShowsAll "a" tree := by
  have hkeyed : ring.Keyed := CallTable.keyed_of_entries (by decide)
  have hregistered : ring.Registered := CallTable.registered_of_entries (by decide)
  obtain ⟨g, hg⟩ := CallTable.build_of_registered hkeyed hregistered
  have hclosed : g.Closed := closed_of_build hkeyed hg (by decide)
  have hbuilt : g.isBuilt "a" := by
    rw [isBuilt_iff, CallTable.node?_of_build hkeyed hg]
    exact Option.isSome_iff_exists.mp (by decide)
  exact ⟨hkeyed, g, hg, hclosed, hbuilt, tree_shows_each_site_once hkeyed hg hclosed hbuilt⟩

end CallGraph
end StaticCalls
