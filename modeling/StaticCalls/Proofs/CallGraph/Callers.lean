import StaticCalls.Proofs.CallGraph.Calls
import StaticCalls.Proofs.Except

/-! The index of callers. Only `addNode` touches it, and in one step with the nodes, so that it
lists the calls between the nodes that are there whatever walks have been made or have failed. A
walk that fails drops the bodies that are open, and no half-filled node is left behind
(`expansions_consistent`). -/
namespace StaticCalls
open scoped List

namespace CallGraph
variable {g : CallGraph} {symbol : String}

/-- The calls of the symbol in the bodies of the other nodes. -/
def callsTo (g : CallGraph) (symbol : String) : List Mention :=
  g.nodes.entries.flatMap fun e =>
    if e.1 = symbol then [] else e.2.calls.filter fun m => m.symbol == symbol

theorem mem_callsTo {m : Mention} : m ∈ g.callsTo symbol ↔
    ∃ caller, caller ≠ symbol ∧ m ∈ g.callsOf caller ∧ m.symbol = symbol := by
  rw [callsTo, List.mem_flatMap]
  constructor
  · rintro ⟨⟨caller, n⟩, hin, hm⟩
    split at hm
    next => cases hm
    next hne =>
      obtain ⟨hcall, hsymbol⟩ := List.mem_filter.mp hm
      refine ⟨caller, hne, ?_, by simpa using hsymbol⟩
      rw [callsOf_of_node? (StringMap.get?_eq_some_iff.mpr hin)]
      exact hcall
  · rintro ⟨caller, hne, hm, hsymbol⟩
    cases hn : g.node? caller with
    | none => simp [callsOf, hn] at hm
    | some n =>
      rw [callsOf_of_node? hn] at hm
      refine ⟨(caller, n), StringMap.get?_eq_some_iff.mp hn, ?_⟩
      rw [if_neg hne, List.mem_filter]
      exact ⟨hm, by simpa using hsymbol⟩

/-- The index lists under each symbol the calls of it in the other nodes. -/
def Indexed (g : CallGraph) : Prop := ∀ symbol, g.callersOf symbol ~ g.callsTo symbol

theorem indexed_empty : empty.Indexed := fun _ => .refl _

theorem callersOf_addNode {n : Node} (h : ¬ g.isBuilt n.symbol) (symbol : String) :
    (g.addNode n).callersOf symbol = g.callersOf symbol ++
      if n.symbol = symbol then [] else n.calls.filter fun m => m.symbol == symbol := by
  rw [addNode, if_neg h]
  simp only [callersOf]
  rw [StringMap.getD_foldl_append, List.filter_filter]
  congr 1
  split
  next heq =>
    rw [List.filter_eq_nil_iff]
    intro m _
    simp [heq]
  next hne =>
    refine List.filter_congr fun m _ => ?_
    by_cases hm : m.symbol = symbol <;> simp [hm, Ne.symm hne]

theorem callsTo_addNode {n : Node} (h : ¬ g.isBuilt n.symbol) (symbol : String) :
    (g.addNode n).callsTo symbol ~ (if n.symbol = symbol then [] else
      n.calls.filter fun m => m.symbol == symbol) ++ g.callsTo symbol := by
  rw [addNode, if_neg h]
  exact (StringMap.entries_insert_perm h n).flatMap_right _

theorem indexed_addNode (hg : g.Indexed) (n : Node) : (g.addNode n).Indexed := by
  by_cases hbuilt : g.isBuilt n.symbol
  · rw [addNode, if_pos hbuilt]
    exact hg
  · intro symbol
    rw [callersOf_addNode hbuilt]
    exact ((hg symbol).append_right _).trans
      (List.perm_append_comm.trans (callsTo_addNode hbuilt symbol).symm)

/-- In a graph whose index is in step, a node is called if another one calls it. -/
theorem Indexed.isCalled_iff (hg : g.Indexed) :
    g.isCalled symbol ↔ ∃ caller, caller ≠ symbol ∧ g.Calls caller symbol := by
  have hempty : g.callersOf symbol = [] ↔ g.callsTo symbol = [] := by
    rw [← List.length_eq_zero_iff, (hg symbol).length_eq, List.length_eq_zero_iff]
  rw [isCalled, Bool.not_eq_true', Bool.eq_false_iff, Ne, List.isEmpty_iff, hempty,
    List.eq_nil_iff_forall_not_mem]
  simp only [mem_callsTo, Calls]
  constructor
  · intro h
    by_contra hnone
    exact h fun m ⟨caller, hne, hm, hsymbol⟩ => hnone ⟨caller, hne, m, hm, hsymbol⟩
  · rintro ⟨caller, hne, m, hm, hsymbol⟩ h
    exact h m ⟨caller, hne, hm, hsymbol⟩

end CallGraph

namespace CallTable
variable {t : CallTable} {g : CallGraph}

/-- A walk from a root leaves the graph as it is, or it descends into the root's node. -/
theorem expand_cases (t : CallTable) (g : CallGraph) (root : String) :
    (t.expand g root).store = g ∨ ∃ n out, t.node? root = some n ∧
      t.builder.Descends n.opened n.calls [] g out ∧ (t.expand g root).store = out.store := by
  cases henter : t.enter root with
  | error e => exact .inl (by rw [expand, Walk.start_of_error henter])
  | ok entered =>
    cases entered with
    | none => exact .inl (by rw [expand, Walk.start_of_none henter])
    | some frame =>
      have hframe : t.builder.enter root none = .ok (some frame) := henter
      obtain ⟨out, hout, hstart⟩ := Walk.start_of_enter hframe [] g
      obtain ⟨n, hn, rfl⟩ := enter_eq_some henter
      exact .inr ⟨n, out, hn, hout, by rw [expand, hstart]⟩

/-- The graph after walks from some roots, one after the other. A walk that fails leaves what it has
built by then. -/
def expansion (t : CallTable) (roots : List String) : CallGraph :=
  roots.foldl (fun g root => (t.expand g root).store) .empty

theorem expansion_concat (t : CallTable) (roots : List String) (root : String) :
    t.expansion (roots ++ [root]) = (t.expand (t.expansion roots) root).store := by
  rw [expansion, List.foldl_append]
  rfl

/-- The nodes are those of the table, and the index of callers is in step with them. -/
structure Consistent (t : CallTable) (g : CallGraph) : Prop where
  nodes : ∀ symbol n, g.node? symbol = some n →
    t.definitions.get? symbol = some n.definition ∧ t.calls.get? symbol = some n.calls
  callers : ∀ symbol, g.callersOf symbol ~ g.callsTo symbol
  called_iff : ∀ symbol, g.isCalled symbol ↔ ∃ caller, caller ≠ symbol ∧ g.Calls caller symbol

theorem consistent_of_indexed (hcovers : t.Covers g) (hindexed : g.Indexed) : t.Consistent g where
  nodes symbol n hn := (node?_eq_some_iff.mp (hcovers symbol n hn)).symm
  callers := hindexed
  called_iff _ := hindexed.isCalled_iff

theorem indexed_expand (hg : g.Indexed) (root : String) : (t.expand g root).store.Indexed := by
  rcases expand_cases t g root with heq | ⟨n, out, _, hout, heq⟩
  · rw [heq]
    exact hg
  · rw [heq]
    exact hout.store_induction (P := CallGraph.Indexed)
      (fun _ n hg => CallGraph.indexed_addNode hg n) hg

theorem indexed_of_build (h : t.build = .ok g) : g.Indexed := by
  refine foldlM_ok_induction ?_ CallGraph.indexed_empty h
  intro root _ g g' hg hstep
  unfold expandNew at hstep
  split at hstep
  next => cases hstep; exact hg
  next =>
    rw [map_eq_ok_iff] at hstep
    obtain ⟨_, _, heq⟩ := hstep
    rw [← heq]
    exact indexed_expand hg root

theorem covers_expand (ht : t.Keyed) (hg : t.Covers g) (root : String) :
    t.Covers (t.expand g root).store ∧ Extends g (t.expand g root).store := by
  rcases expand_cases t g root with heq | ⟨n, out, hn, hout, heq⟩
  · rw [heq]
    exact ⟨hg, fun _ => id⟩
  · rw [← symbol_of_node? ht hn] at hn
    have hexpanded := expanded_of_descends ht hout hg hn
    rw [heq]
    exact ⟨hexpanded.covers, hexpanded.kept⟩

/-- Where the nodes are read off one table, those that stay built stay the same. -/
theorem Extends.node? {g' : CallGraph} (h : Extends g g') (hg : t.Covers g) (hg' : t.Covers g')
    {symbol : String} {n : Node} (hn : g.node? symbol = some n) : g'.node? symbol = some n := by
  obtain ⟨n', hn'⟩ := CallGraph.isBuilt_iff.mp (h symbol (CallGraph.isBuilt_iff.mpr ⟨n, hn⟩))
  rw [hn', ← hg' symbol n' hn', hg symbol n hn]

theorem expansion_indexed (t : CallTable) (roots : List String) : (t.expansion roots).Indexed :=
  List.foldlRecOn roots _ CallGraph.indexed_empty fun _ hg root _ => indexed_expand hg root

theorem expansion_covers (ht : t.Keyed) (roots : List String) : t.Covers (t.expansion roots) :=
  List.foldlRecOn roots _ (by rintro symbol n ⟨⟩) fun _ hg root _ => (covers_expand ht hg root).1

/-- Whatever roots have been walked from, in whatever order, and whichever of these walks have
failed, the graph is consistent, and one more walk changes none of its nodes. -/
theorem expansions_consistent (ht : t.Keyed) (roots : List String) :
    t.Consistent (t.expansion roots) ∧ ∀ root symbol n,
      (t.expansion roots).node? symbol = some n →
        (t.expansion (roots ++ [root])).node? symbol = some n := by
  have hcovers := expansion_covers ht roots
  refine ⟨consistent_of_indexed hcovers (expansion_indexed t roots), fun root symbol n hn => ?_⟩
  obtain ⟨hcovers', hkept⟩ := covers_expand ht hcovers root
  rw [expansion_concat]
  exact Extends.node? hkept hcovers hcovers' hn

/-- Calls in a circle, and one of a body that is not registered. -/
def unfinished : CallTable :=
  let body (symbol : String) (line : UInt32) : String × Mention :=
    (symbol, ⟨"unfinished", .definition symbol (.ofCoordinates line 0 line 1) none⟩)
  let call (symbol : String) (line : UInt32) : Mention :=
    ⟨"unfinished", .reference symbol (.ofCoordinates line 0 line 1)⟩
  { definitions := .ofList [body "a" 0, body "b" 10, body "c" 20]
    calls := .ofList [("a", [call "b" 1, call "c" 2, call "lost" 3]),
      ("b", [call "c" 11, call "b" 12]), ("c", [call "b" 21, call "a" 22]), ("lost", [])] }

/-- The walk from `a` fails after it has built the other two bodies; that from `b` succeeds. -/
theorem unfinished_expansions_consistent : unfinished.Keyed ∧
    (unfinished.expand .empty "a").result = .error (.missingDefinition "lost") ∧
    (unfinished.expansion ["a"]).symbols = ["b", "c"] ∧
    unfinished.Consistent (unfinished.expansion ["a", "b", "z", "a"]) ∧
    ∀ root symbol n, (unfinished.expansion ["a", "b", "z", "a"]).node? symbol = some n →
      (unfinished.expansion (["a", "b", "z", "a"] ++ [root])).node? symbol = some n := by
  have hkeyed : unfinished.Keyed := keyed_of_entries (by decide)
  obtain ⟨frame, henter⟩ : ∃ frame, unfinished.builder.enter "a" none = .ok (some frame) :=
    ⟨_, rfl⟩
  obtain ⟨out, hout, hresult, hsymbols⟩ : ∃ out,
      unfinished.builder.iterate 20 ⟨frame, [], [], .empty⟩ = .inl out ∧
        out.result = .error (.missingDefinition "lost") ∧ out.store.symbols = ["b", "c"] := by
    cases henter
    exact ⟨_, rfl, rfl, rfl⟩
  have hexpand : unfinished.expand .empty "a" = ⟨out.result.map some, out.visited, out.store⟩ :=
    Walk.start_of_iterate henter hout
  have hfirst : unfinished.expansion ["a"] = out.store := congrArg Walk.Outcome.store hexpand
  refine ⟨hkeyed, ?_, ?_, expansions_consistent hkeyed ["a", "b", "z", "a"]⟩
  · rw [hexpand, hresult]
    rfl
  · rw [hfirst, hsymbols]

end CallTable
end StaticCalls
