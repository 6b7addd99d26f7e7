import StaticCalls.Proofs.CallGraph.Callers
import StaticCalls.Proofs.CallGraph.Ranking
import StaticCalls.Proofs.Pipeline.Outcome
import StaticCalls.Proofs.Rendition.CallTree

/-! The forest of a graph is read back unless one of its trees is too high (`forest_reads_back`);
a chain of calls that is long enough makes such a tree. -/
namespace StaticCalls.CallGraph
open CallTree
variable {g g' : CallGraph} {f : CallForest}

/-- A tree that is low enough tells no depth beyond 64 bits. -/
theorem bounded_of_forest (h : g.forest = .ok f) {t : CallTree} (ht : t ∈ f.roots)
    (hlow : t.height ≤ maxHeight) : t.Bounded := by
  obtain ⟨symbol, _, t', htree, rfl⟩ := exists_tree_of_mem_roots h ht
  have hheight : ({ t' with depth := some (g.depth symbol) } : CallTree).height = t'.height := by
    rw [height_eq, height_eq t']
  have hdepth := depth_le_height htree
  have hmax : maxHeight + 1 < UInt64.size := by decide
  intro r hr d hd
  rw [records_eq, List.mem_cons] at hr
  rcases hr with rfl | hr
  · cases hd
    omega
  · have hnone := depth_eq_none_of_tree htree r (by
      rw [records_eq]
      exact List.mem_cons_of_mem _ hr)
    rw [hnone] at hd
    cases hd

/-- In either style, the forest of a graph is read back as itself if none of its trees has more
generations than a text may nest, and it is not read at all otherwise. -/
theorem forest_reads_back (h : g.forest = .ok f) :
    f.ReadsAs (if ∀ t ∈ f.roots, t.height ≤ maxHeight then some f else none) := by
  split
  next hlow =>
    exact CallForest.readsAs_self (fun t ht => bounded_of_forest h ht (hlow t ht)) hlow
  next hhigh =>
    simp only [not_forall, Nat.not_le] at hhigh
    obtain ⟨t, ht, hheight⟩ := hhigh
    exact CallForest.readsAs_none ht hheight

/-! ### Chains -/

/-- The height of the tree of a node, if it is finished in so many steps. -/
def heightWithin (g : CallGraph) (steps : Nat) (symbol : String) : Option Nat :=
  match g.node? symbol with
  | none => none
  | some n =>
      match g.planter.iterate steps ⟨⟨.leaf n none, n.calls⟩, [], [], ()⟩ with
      | .inl out => out.result.toOption.map height
      | .inr _ => none

theorem exists_tree_of_heightWithin {steps k : Nat} {symbol : String}
    (h : g.heightWithin steps symbol = some k) :
    ∃ t, (g.tree symbol none []).result = .ok (some t) ∧ t.height = k := by
  unfold heightWithin at h
  cases hn : g.node? symbol with
  | none => simp [hn] at h
  | some n =>
    cases hsteps : g.planter.iterate steps ⟨⟨.leaf n none, n.calls⟩, [], [], ()⟩ with
    | inr s => simp [hn, hsteps] at h
    | inl out =>
      simp only [hn, hsteps, Option.map_eq_some_iff] at h
      obtain ⟨t, ht, hheight⟩ := h
      cases hresult : out.result with
      | error e => simp [hresult, Except.toOption] at ht
      | ok t' =>
        simp only [hresult, Except.toOption, Option.some.injEq] at ht
        refine ⟨t, ?_, hheight⟩
        rw [tree, Walk.start_of_iterate (planter_enter_of_node? hn) hsteps, hresult, ht]
        rfl

theorem heightWithin_congr (h : g.nodes = g'.nodes) : g.heightWithin = g'.heightWithin := by
  cases g
  cases g'
  cases h
  rfl

/-- Bodies of one-letter names, each of which calls the next one. -/
def chain (length : Nat) : CallTable :=
  let name (i : Nat) : String := String.singleton (Char.ofNat ('0'.toNat + i))
  let body (i : Nat) : String × Mention :=
    (name i, ⟨"chain", .definition (name i) (.ofCoordinates i.toUInt32 0 i.toUInt32 1) none⟩)
  let calls (i : Nat) : String × List Mention :=
    (name i, if i + 1 < length then
      [⟨"chain", .reference (name (i + 1)) (.ofCoordinates i.toUInt32 2 i.toUInt32 3)⟩] else [])
  ⟨.ofList ((List.range length).reverse.map body), .ofList ((List.range length).reverse.map calls)⟩

/-- The graph of a table, without the index of callers. -/
def nodesOf (t : CallTable) : CallGraph := ⟨t.nodes, .empty⟩

theorem heightWithin_of_build {t : CallTable} (ht : t.Keyed) (h : t.build = .ok g) :
    g.heightWithin = (nodesOf t).heightWithin :=
  heightWithin_congr (CallTable.nodes_of_build ht h)

theorem exists_forest_of_entries {t : CallTable} (ht : t.Keyed) (hregistered : t.Registered)
    (hcalls : ∀ e ∈ t.calls.entries, ∀ m ∈ e.2, t.calls.contains m.symbol) :
    ∃ g f, t.build = .ok g ∧ g.forest = .ok f := by
  obtain ⟨g, hg⟩ := CallTable.build_of_registered ht hregistered
  obtain ⟨f, hf⟩ := exists_forest (keyed_of_build ht hg) (closed_of_build ht hg hcalls)
  exact ⟨g, f, hg, hf⟩

/-- A body that is called by no other one is a root. -/
theorem mem_roots_of_build {t : CallTable} (ht : t.Keyed) (h : t.build = .ok g) {symbol : String}
    (hsymbol : t.calls.contains symbol)
    (huncalled : ∀ e ∈ t.calls.entries, ∀ m ∈ e.2, m.symbol = symbol → e.1 = symbol) :
    symbol ∈ g.roots := by
  rw [roots, List.mem_filter, CallTable.symbols_of_build ht h, StringMap.mem_keys_iff,
    Bool.not_eq_true', Bool.eq_false_iff, Ne, (CallTable.indexed_of_build h).isCalled_iff]
  refine ⟨hsymbol, ?_⟩
  rintro ⟨caller, hne, m, hm, heq⟩
  cases hn : g.node? caller with
  | none => simp [callsOf, hn] at hm
  | some n =>
    rw [callsOf_of_node? hn] at hm
    rw [CallTable.node?_of_build ht h, CallTable.node?_eq_some_iff] at hn
    exact hne (huncalled (caller, n.calls) (StringMap.get?_eq_some_iff.mp hn.1) m hm heq)

theorem chain_forest_reads_back : ∃ g f, (chain 3).build = .ok g ∧ g.forest = .ok f ∧
    (∀ t ∈ f.roots, t.height ≤ maxHeight) ∧ f.ReadsAs (some f) := by
  have hkeyed : (chain 3).Keyed := CallTable.keyed_of_entries (by decide)
  obtain ⟨g, f, hg, hf⟩ := exists_forest_of_entries hkeyed
    (CallTable.registered_of_entries (by decide)) (by decide)
  have hheights : ∀ symbol ∈ (chain 3).calls.keys,
      ∃ k ≤ 2, (nodesOf (chain 3)).heightWithin 10 symbol = some k := by decide +kernel
  have hlow : ∀ t ∈ f.roots, t.height ≤ maxHeight := by
    intro t ht
    obtain ⟨symbol, hsymbol, t', htree, rfl⟩ := exists_tree_of_mem_roots hf ht
    have hbuilt := List.mem_of_mem_filter hsymbol
    rw [CallTable.symbols_of_build hkeyed hg] at hbuilt
    obtain ⟨k, hk, hwithin⟩ := hheights symbol hbuilt
    rw [← heightWithin_of_build hkeyed hg] at hwithin
    obtain ⟨t'', htree', rfl⟩ := exists_tree_of_heightWithin hwithin
    rw [htree] at htree'
    cases htree'
    rw [height_eq] at hk ⊢
    exact Nat.le_trans hk (by decide)
  have hreads := forest_reads_back hf
  rw [if_pos hlow] at hreads
  exact ⟨g, f, hg, hf, hlow, hreads⟩

/-- Sixty-two calls in a row are too many. -/
theorem chain_forest_not_read_back : ∃ g f, (chain 63).build = .ok g ∧ g.forest = .ok f ∧
    Json.decodeText? CallForest.ofJson? f.pretty ≠ some f ∧
    Json.decodeText? CallForest.ofJson? f.compact ≠ some f := by
  have hkeyed : (chain 63).Keyed := CallTable.keyed_of_entries (by decide +kernel)
  obtain ⟨g, f, hg, hf⟩ := exists_forest_of_entries hkeyed
    (CallTable.registered_of_entries (by decide +kernel)) (by decide +kernel)
  have hroot : "0" ∈ g.roots :=
    mem_roots_of_build hkeyed hg (by decide +kernel) (by decide +kernel)
  have hwithin : (nodesOf (chain 63)).heightWithin 200 "0" = some 62 := by decide +kernel
  rw [← heightWithin_of_build hkeyed hg] at hwithin
  obtain ⟨t, htree, hheight⟩ := exists_tree_of_heightWithin hwithin
  have hhigh : maxHeight < ({ t with depth := some (g.depth "0") } : CallTree).height := by
    rw [height_eq] at hheight ⊢
    exact Nat.lt_of_lt_of_eq (by decide) hheight.symm
  have hreads := CallForest.readsAs_none (mem_roots_of_tree hf hroot htree) hhigh
  refine ⟨g, f, hg, hf, ?_, ?_⟩
  · rw [hreads.pretty]
    exact (Option.some_ne_none f).symm
  · rw [hreads.compact]
    exact (Option.some_ne_none f).symm

end StaticCalls.CallGraph
