import StaticCalls.Proofs.CallGraph.Ranking
import StaticCalls.Proofs.Pipeline.Outcome

/-! The depth of a node, read off its tree. The measure does not enter bodies without calls and the
tree shows them as leaves, but both take the same calls in the same order, so that the depth is the
number of levels of the tree, one level being counted for a body whose calls are all shown
elsewhere (`depth_eq_levels`). -/
namespace StaticCalls

namespace CallTree

/-- The levels of calls from a record on: none where the symbol has no calls, and otherwise one more
than the most levels of a child. -/
def levels (hasCalls : String → Bool) : CallTree → Nat
  | ⟨symbol, _, _, _, children⟩ => if hasCalls symbol then most children + 1 else 0
where
  most : List CallTree → Nat
    | [] => 0
    | t :: rest => max (t.levels hasCalls) (most rest)

variable {hasCalls : String → Bool}

theorem levels_of_calls {t : CallTree} (h : hasCalls t.symbol) :
    t.levels hasCalls = levels.most hasCalls t.children + 1 := by
  cases t
  rw [levels, if_pos h]

theorem levels_of_no_calls {t : CallTree} (h : hasCalls t.symbol = false) :
    t.levels hasCalls = 0 := by
  cases t
  rw [levels, if_neg (by simpa using h)]

theorem most_addChild (t c : CallTree) : levels.most hasCalls (t.addChild c).children =
    max (levels.most hasCalls t.children) (c.levels hasCalls) := by
  have happend (l : List CallTree) :
      levels.most hasCalls (l ++ [c]) = max (levels.most hasCalls l) (c.levels hasCalls) := by
    induction l with
    | nil => exact Nat.max_comm _ _
    | cons t rest ih => rw [List.cons_append, levels.most, levels.most, ih, Nat.max_assoc]
  exact happend t.children

/-- What a record tells of its depth is not counted. -/
theorem levels_setDepth (t : CallTree) (depth : Option Nat) :
    ({ t with depth } : CallTree).levels hasCalls = t.levels hasCalls := by
  cases t
  rw [levels, levels]

end CallTree

namespace CallGraph
open CallTree
variable {g : CallGraph} {symbol : String}

def hasCalls (g : CallGraph) (symbol : String) : Bool := !(g.callsOf symbol).isEmpty

theorem hasCalls_iff : g.hasCalls symbol ↔ g.callsOf symbol ≠ [] := by
  simp [hasCalls]

theorem hasCalls_eq_false_iff : g.hasCalls symbol = false ↔ g.callsOf symbol = [] := by
  simp [hasCalls]

/-- The deepest chain below the calls taken so far is told by the children so far. -/
theorem measures_most (hkeyed : g.Keyed) : g.Measures fun t deepest =>
    g.hasCalls t.symbol ∧ levels.most g.hasCalls t.children = deepest where
  leaf {symbol n caller} hn hcalls := by
    have hsymbol : (CallTree.leaf n caller).symbol = symbol := hkeyed symbol n hn
    refine ⟨?_, rfl⟩
    rw [hsymbol, hasCalls_iff, callsOf_of_node? hn]
    exact hcalls
  pass {symbol n caller t deepest} hn hnone ht := by
    have hsymbol : (CallTree.leaf n caller).symbol = symbol := hkeyed symbol n hn
    have hleaf : (CallTree.leaf n caller).levels g.hasCalls = 0 := by
      apply levels_of_no_calls
      rw [hsymbol, hasCalls_eq_false_iff, callsOf_of_node? hn]
      exact hnone
    refine ⟨ht.1, ?_⟩
    rw [most_addChild, hleaf, ht.2, Nat.max_zero]
  enter {t c deepest below} ht hc := by
    refine ⟨ht.1, ?_⟩
    rw [most_addChild, levels_of_calls hc.1, ht.2, hc.2]

theorem depth_eq_levels (hkeyed : g.Keyed) {caller : Option Mention} {t : CallTree}
    (h : (g.tree symbol caller []).result = .ok (some t)) :
    g.depth symbol = t.levels g.hasCalls := by
  rcases (measures_most hkeyed).depth h with ⟨hnone, hdepth⟩ | ⟨deepest, ⟨hcalls, hmost⟩, hdepth⟩
  · rw [hdepth, levels_of_no_calls]
    rw [symbol_of_tree hkeyed h, hasCalls_eq_false_iff]
    exact hnone
  · rw [hdepth, levels_of_calls hcalls, hmost]

/-- Depths and trees agree on every built graph, whatever call a tree is reached by: the depth that
the forest tells of a root depends on nothing but its tree and which symbols have calls. -/
theorem depths_read_off_trees {table : CallTable} (htable : table.Keyed)
    (hbuild : table.build = .ok g) :
    (∀ symbol caller t, (g.tree symbol caller []).result = .ok (some t) →
      g.depth symbol = t.levels g.hasCalls) ∧
    ∀ f, g.forest = .ok f → ∀ t ∈ f.roots, t.depth = some (t.levels g.hasCalls) := by
  have hkeyed := keyed_of_build htable hbuild
  refine ⟨fun symbol caller t h => depth_eq_levels hkeyed h, fun f hf t ht => ?_⟩
  obtain ⟨symbol, _, t', htree, rfl⟩ := exists_tree_of_mem_roots hf ht
  rw [levels_setDepth, ← depth_eq_levels hkeyed htree]

/-- Two bodies that call each other, and a third one that calls both. -/
def echo : CallTable :=
  let body (symbol : String) (line : UInt32) : String × Mention :=
    (symbol, ⟨"echo", .definition symbol (.ofCoordinates line 0 line 1) none⟩)
  let call (symbol : String) (line : UInt32) : Mention :=
    ⟨"echo", .reference symbol (.ofCoordinates line 0 line 1)⟩
  { definitions := .ofList [body "main" 0, body "ping" 10, body "pong" 20]
    calls := .ofList [("main", [call "ping" 1, call "pong" 2]), ("ping", [call "pong" 11]),
      ("pong", [call "ping" 21])] }

/-- The calls of the second `pong` and of the second `ping` are shown elsewhere. -/
theorem echo_depths_read_off_trees : echo.Keyed ∧ ∃ g t f, echo.build = .ok g ∧
    (g.tree "main" none []).result = .ok (some t) ∧ g.depth "main" = t.levels g.hasCalls ∧
    g.forest = .ok f ∧ ∀ t ∈ f.roots, t.depth = some (t.levels g.hasCalls) := by
  have hkeyed : echo.Keyed := CallTable.keyed_of_entries (by decide)
  have hregistered : echo.Registered := CallTable.registered_of_entries (by decide)
  obtain ⟨g, hg⟩ := CallTable.build_of_registered hkeyed hregistered
  have hclosed : g.Closed := closed_of_build hkeyed hg (by decide)
  have hbuilt : g.isBuilt "main" := by
    rw [isBuilt_iff, CallTable.node?_of_build hkeyed hg]
    exact Option.isSome_iff_exists.mp (by decide)
  obtain ⟨t, ht, _⟩ := exists_tree_showsAll (keyed_of_build hkeyed hg) hclosed hbuilt
  obtain ⟨f, hf⟩ := exists_forest (keyed_of_build hkeyed hg) hclosed
  obtain ⟨htrees, hroots⟩ := depths_read_off_trees hkeyed hg
  exact ⟨hkeyed, g, t, f, hg, ht, htrees "main" none t ht, hf, hroots f hf⟩

end CallGraph
end StaticCalls
