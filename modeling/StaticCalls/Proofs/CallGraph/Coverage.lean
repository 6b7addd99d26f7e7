import StaticCalls.Proofs.CallGraph.Union
import Mathlib.Order.WellFoundedSet

/-! Which nodes a forest shows. A tree shows what can be reached from its root, so that the forest
shows the nodes that can be reached from some root (`shows_iff`). Going back from caller to caller
ends at a root where no calls but those of a body by itself run in a circle
(`exists_root_reaches`). -/
namespace StaticCalls

/-- The symbol has a record in some tree. -/
def CallForest.Shows (f : CallForest) (symbol : String) : Prop :=
  ∃ t ∈ f.roots, ∃ r ∈ t.records, r.symbol = symbol

/-- Apart from calls of a body by itself no calls run in a circle. -/
def RunsInNoCircle (calls : String → String → Prop) : Prop :=
  ∀ symbol, ¬ Relation.TransGen (fun caller callee => calls caller callee ∧ caller ≠ callee)
    symbol symbol

namespace CallGraph
open Relation CallTree
variable {g : CallGraph} {f : CallForest} {t : CallTree} {root symbol : String}

/-- The roots are the nodes that no other node calls. -/
theorem mem_roots_iff (hg : g.Indexed) : symbol ∈ g.roots ↔
    g.isBuilt symbol ∧ ¬ ∃ caller, caller ≠ symbol ∧ g.Calls caller symbol := by
  rw [roots, List.mem_filter, mem_symbols_iff, ← hg.isCalled_iff, Bool.not_eq_true',
    Bool.not_eq_true]

theorem exists_record_iff : (∃ r ∈ t.records, r.symbol = symbol) ↔
    t.symbol = symbol ∨ ∃ r ∈ t.descendants, r.symbol = symbol := by
  simp only [records_eq, List.mem_cons, exists_eq_or_imp]

/-- The depth that a root tells is of no concern. -/
theorem exists_record_setDepth_iff (depth : Option Nat) :
    (∃ r ∈ ({ t with depth } : CallTree).records, r.symbol = symbol) ↔
      ∃ r ∈ t.records, r.symbol = symbol := by
  rw [exists_record_iff, exists_record_iff]
  rfl

/-- The records of a tree are those of the nodes that can be reached from its root. -/
theorem ShowsAll.exists_record_iff (h : g.ShowsAll root t) :
    (∃ r ∈ t.records, r.symbol = symbol) ↔ g.Reaches root symbol := by
  rw [CallGraph.exists_record_iff, h.top.1]
  constructor
  · rintro (rfl | ⟨r, hr, rfl⟩)
    · exact .refl
    · obtain ⟨x, hx⟩ := Option.isSome_iff_exists.mp (h.called r hr)
      obtain ⟨reference, _, rfl⟩ := Option.map_eq_some_iff.mp hx
      obtain ⟨reached, hreached, m, hm, hsite⟩ :=
        (h.mem_sites_iff _).mp (List.mem_filterMap.mpr ⟨r, hr, hx⟩)
      exact hreached.tail ⟨m, hm, congrArg CallSite.symbol hsite⟩
  · intro hreaches
    rcases hreaches.cases_tail with rfl | ⟨reached, hreached, m, hm, rfl⟩
    · exact .inl rfl
    · obtain ⟨r, hr, hsite⟩ := List.mem_filterMap.mp
        ((h.mem_sites_iff m.site).mpr ⟨reached, hreached, m, hm, rfl⟩)
      obtain ⟨reference, _, heq⟩ := Option.map_eq_some_iff.mp hsite
      exact .inr ⟨r, hr, congrArg CallSite.symbol heq⟩

/-- A forest shows the nodes that can be reached from its roots. -/
theorem shows_iff (hkeyed : g.Keyed) (hclosed : g.Closed) (hf : g.forest = .ok f) :
    f.Shows symbol ↔ ∃ root ∈ g.roots, g.Reaches root symbol := by
  have hbuilt {root : String} (hroot : root ∈ g.roots) : g.isBuilt root :=
    mem_symbols_iff.mp (List.mem_of_mem_filter hroot)
  constructor
  · rintro ⟨_, hin, hrecord⟩
    obtain ⟨root, hroot, t, htree, rfl⟩ := exists_tree_of_mem_roots hf hin
    obtain ⟨t', htree', hshows⟩ := exists_tree_showsAll hkeyed hclosed (hbuilt hroot)
    rw [htree] at htree'
    cases htree'
    rw [exists_record_setDepth_iff, hshows.exists_record_iff] at hrecord
    exact ⟨root, hroot, hrecord⟩
  · rintro ⟨root, hroot, hreaches⟩
    obtain ⟨t, htree, hshows⟩ := exists_tree_showsAll hkeyed hclosed (hbuilt hroot)
    refine ⟨_, mem_roots_of_tree hf hroot htree, ?_⟩
    rw [exists_record_setDepth_iff, hshows.exists_record_iff]
    exact hreaches

/-- Without such circles each node can be reached from a root. -/
theorem exists_root_reaches (hg : g.Indexed) (hcircle : RunsInNoCircle g.Calls)
    (hsymbol : g.isBuilt symbol) : ∃ root ∈ g.roots, g.Reaches root symbol := by
  let before := TransGen fun caller callee => g.Calls caller callee ∧ caller ≠ callee
  have : IsStrictOrder String before := { irrefl := hcircle }
  have hfounded : {s | s ∈ g.symbols}.WellFoundedOn before :=
    g.symbols.finite_toSet.wellFoundedOn
  -- induction from the callers of a node to the node, over the finitely many nodes
  refine hfounded.induction (P := fun s => ∃ root ∈ g.roots, g.Reaches root s)
    (mem_symbols_iff.mpr hsymbol) fun s hs ih => ?_
  by_cases hcalled : ∃ caller, caller ≠ s ∧ g.Calls caller s
  · obtain ⟨caller, hne, hcall⟩ := hcalled
    obtain ⟨root, hroot, hreaches⟩ :=
      ih caller (mem_symbols_iff.mpr hcall.isBuilt) (.single ⟨hcall, hne⟩)
    exact ⟨root, hroot, hreaches.tail hcall⟩
  · exact ⟨s, (mem_roots_iff hg).mpr ⟨mem_symbols_iff.mp hs, hcalled⟩, .refl⟩

end CallGraph
end StaticCalls
