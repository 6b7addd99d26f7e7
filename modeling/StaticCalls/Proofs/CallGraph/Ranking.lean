import StaticCalls.Proofs.CallTree.Height
import StaticCalls.Proofs.Except
import StaticCalls.Proofs.Scope.Innermost

/-! The order of the roots, and the trees of a forest, which stand in this order. -/
namespace StaticCalls
open scoped List

/-- Deeper roots come first, and roots of one depth in the order of their symbols. -/
def RankedRoot.Precedes (a b : RankedRoot) : Prop :=
  b.depth < a.depth ∨ a.depth = b.depth ∧ a.symbol < b.symbol

namespace CallGraph
variable {g : CallGraph} {f : CallForest}

instance : Std.TransCmp rankOrder :=
  inferInstanceAs (Std.TransCmp (compareLex
    (fun a b : RankedRoot => compareOn RankedRoot.depth b a) (compareOn RankedRoot.symbol)))

theorem precedes_of_rankOrder {a b : RankedRoot} (h : (rankOrder a b).isLE)
    (hne : a.symbol ≠ b.symbol) : a.Precedes b := by
  rw [rankOrder, Ordering.isLE_then_iff_or] at h
  rcases h with hdepth | ⟨hdepth, hsymbol⟩
  · exact .inl (Nat.compare_eq_lt.mp hdepth)
  · refine .inr ⟨(Nat.compare_eq_eq.mp hdepth).symm, ?_⟩
    have hlt : compare a.symbol b.symbol = .lt := by
      cases hcompare : compare a.symbol b.symbol with
      | lt => rfl
      | eq => exact absurd (Std.compare_eq_iff_eq.mp hcompare) hne
      | gt => rw [hcompare] at hsymbol; cases hsymbol
    exact compareOfLessAndEq_eq_lt.mp hlt

theorem rankedRoots_perm (g : CallGraph) :
    g.rankedRoots ~ g.roots.map fun symbol => ⟨symbol, g.depth symbol⟩ :=
  List.mergeSort_perm _ _

theorem nodup_roots (g : CallGraph) : g.roots.Nodup := g.nodes.nodup_keys.filter _

theorem rankedRoots_pairwise (g : CallGraph) : g.rankedRoots.Pairwise RankedRoot.Precedes := by
  have hsymbols : (g.rankedRoots.map RankedRoot.symbol).Nodup := by
    rw [(g.rankedRoots_perm.map RankedRoot.symbol).nodup_iff, List.map_map]
    exact (List.map_id _).symm ▸ g.nodup_roots
  have hsorted : g.rankedRoots.Pairwise fun a b => (rankOrder a b).isLE :=
    pairwise_mergeSort_isLE _
  exact (hsorted.and (List.pairwise_map.mp hsymbols)).imp fun h => precedes_of_rankOrder h.1 h.2

theorem forall₂_of_forest (h : g.forest = .ok f) :
    List.Forall₂ (fun root t => g.rootTree root = .ok t) g.rankedRoots f.roots := by
  rw [forest, bind_eq_ok_iff] at h
  obtain ⟨trees, htrees, hforest⟩ := h
  cases hforest
  exact mapM_eq_ok_iff.mp htrees

/-- The trees of a forest are those of the roots, in their order. -/
theorem roots_of_forest (h : g.forest = .ok f) :
    f.roots = g.rankedRoots.filterMap fun root => (g.rootTree root).toOption := by
  have htrees := forall₂_of_forest h
  generalize g.rankedRoots = ranked at htrees
  generalize f.roots = trees at htrees
  induction htrees with
  | nil => rfl
  | cons hroot _ ih =>
    rw [List.filterMap_cons, hroot, ih]
    rfl

theorem symbol_of_tree (hkeyed : g.Keyed) {symbol : String} {caller : Option Mention}
    {visited : List CallSite} {t : CallTree}
    (h : (g.tree symbol caller visited).result = .ok (some t)) : t.symbol = symbol := by
  obtain ⟨n, out, hn, hout, hok⟩ := exists_descends_of_tree h
  obtain ⟨_, hgrown⟩ := grown_of_descends hkeyed hout hok
  rw [hgrown.result]
  exact hkeyed symbol n hn

/-- The tree of a root is that of its node, and it tells the depth. -/
theorem exists_tree_of_rootTree {root : RankedRoot} {t : CallTree} (h : g.rootTree root = .ok t) :
    ∃ t', (g.tree root.symbol none []).result = .ok (some t') ∧
      t = { t' with depth := some root.depth } := by
  rw [rootTree, bind_eq_ok_iff] at h
  obtain ⟨found, htree, hroot⟩ := h
  cases found with
  | none => cases hroot
  | some t' =>
    cases hroot
    exact ⟨t', htree, rfl⟩

theorem root_of_rootTree (hkeyed : g.Keyed) {root : RankedRoot} {t : CallTree}
    (h : g.rootTree root = .ok t) : t.symbol = root.symbol ∧ t.depth = some root.depth := by
  obtain ⟨t', htree, rfl⟩ := exists_tree_of_rootTree h
  have hsymbol : t'.symbol = root.symbol := symbol_of_tree hkeyed htree
  exact ⟨hsymbol, rfl⟩

/-- The roots that a forest tells are those of the graph. -/
theorem rankedRoots_of_forest (hkeyed : g.Keyed) (h : g.forest = .ok f) :
    f.rankedRoots = g.rankedRoots := by
  have htrees := forall₂_of_forest h
  rw [CallForest.rankedRoots]
  generalize g.rankedRoots = ranked at htrees
  generalize f.roots = trees at htrees
  induction htrees with
  | nil => rfl
  | cons hroot _ ih =>
    obtain ⟨hsymbol, hdepth⟩ := root_of_rootTree hkeyed hroot
    rw [List.map_cons, ih, hsymbol, hdepth]
    rfl

theorem exists_tree_of_mem_roots (h : g.forest = .ok f) {t : CallTree} (ht : t ∈ f.roots) :
    ∃ symbol ∈ g.roots, ∃ t', (g.tree symbol none []).result = .ok (some t') ∧
      t = { t' with depth := some (g.depth symbol) } := by
  rw [roots_of_forest h, List.mem_filterMap] at ht
  obtain ⟨root, hroot, hsome⟩ := ht
  obtain ⟨symbol, hsymbol, rfl⟩ := List.mem_map.mp (g.rankedRoots_perm.mem_iff.mp hroot)
  cases htree : g.rootTree ⟨symbol, g.depth symbol⟩ with
  | error e => simp [htree, Except.toOption] at hsome
  | ok t'' =>
    simp only [htree, Except.toOption, Option.some.injEq] at hsome
    obtain ⟨t', htree', heq⟩ := exists_tree_of_rootTree htree
    exact ⟨symbol, hsymbol, t', htree', by rw [← hsome, heq]⟩

theorem mem_roots_of_tree (h : g.forest = .ok f) {symbol : String} (hsymbol : symbol ∈ g.roots)
    {t : CallTree} (htree : (g.tree symbol none []).result = .ok (some t)) :
    { t with depth := some (g.depth symbol) } ∈ f.roots := by
  rw [roots_of_forest h, List.mem_filterMap]
  refine ⟨⟨symbol, g.depth symbol⟩, ?_, ?_⟩
  · exact g.rankedRoots_perm.mem_iff.mpr (List.mem_map.mpr ⟨symbol, hsymbol, rfl⟩)
  · rw [rootTree, htree]
    rfl

end CallGraph
end StaticCalls
