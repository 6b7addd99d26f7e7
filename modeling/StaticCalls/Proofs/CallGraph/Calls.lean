import StaticCalls.CallGraph.Depth
import StaticCalls.CallTree
import StaticCalls.Proofs.CallGraph.Nodes
import StaticCalls.Proofs.Walk.Coverage

/-! The relation of calls between the nodes of a graph, and the call sites that can be reached from
a node. Laying out trees and measuring depths both walk along this relation. -/
namespace StaticCalls.CallGraph
open Relation
variable {g : CallGraph} {t : CallTable}

/-- The calls in the body of a node; there are none where there is no node. -/
def callsOf (g : CallGraph) (symbol : String) : List Mention :=
  match g.node? symbol with
  | some n => n.calls
  | none => []

theorem callsOf_of_node? {symbol : String} {n : Node} (h : g.node? symbol = some n) :
    g.callsOf symbol = n.calls := by
  simp only [callsOf, h]

/-- The call sites in the bodies of all nodes. -/
def sites (g : CallGraph) : List CallSite := (g.nodes.values.flatMap Node.calls).map Mention.site

theorem site_mem_sites {symbol : String} {n : Node} (h : g.node? symbol = some n) :
    ∀ m ∈ n.calls, m.site ∈ g.sites := by
  intro m hm
  have hn : n ∈ g.nodes.values := StringMap.mem_values_of_get? h
  exact List.mem_map.mpr ⟨m, List.mem_flatMap.mpr ⟨n, hn, hm⟩, rfl⟩

def Calls (g : CallGraph) (caller callee : String) : Prop :=
  ∃ m ∈ g.callsOf caller, m.symbol = callee

/-- Over any number of calls, none included. -/
def Reaches (g : CallGraph) : String → String → Prop := ReflTransGen g.Calls

/-- The call sites in the bodies that are reached from `symbol`, its own body included. -/
def sitesFrom (g : CallGraph) (symbol : String) : Set CallSite :=
  {x | ∃ reached, g.Reaches symbol reached ∧ ∃ m ∈ g.callsOf reached, m.site = x}

/-- The target of each call is a node. -/
def Closed (g : CallGraph) : Prop := ∀ symbol, ∀ m ∈ g.callsOf symbol, g.isBuilt m.symbol

/-- Each node stands under its own symbol. -/
def Keyed (g : CallGraph) : Prop := ∀ symbol n, g.node? symbol = some n → n.symbol = symbol

theorem below_callsOf_iff {symbol : String} {x : CallSite} :
    Walk.Below g.callsOf (g.callsOf symbol) x ↔ x ∈ g.sitesFrom symbol := by
  constructor
  · rintro ⟨m, hm, hreach⟩
    induction hreach with
    | refl => exact ⟨symbol, .refl, m, hm, rfl⟩
    | tail _ hlead ih =>
      obtain ⟨reached, hreached, m', hm', rfl⟩ := ih
      obtain ⟨m'', hm'', rfl⟩ := hlead
      exact ⟨m'.symbol, hreached.tail ⟨m', hm', rfl⟩, m'', hm'', rfl⟩
  · rintro ⟨reached, hreached, m, hm, rfl⟩
    induction hreached generalizing m with
    | refl => exact ⟨m, hm, .refl⟩
    | tail _ hcalls ih =>
      obtain ⟨m', hm', rfl⟩ := hcalls
      obtain ⟨first, hfirst, hreach⟩ := ih m' hm'
      exact ⟨first, hfirst, hreach.tail ⟨m, hm, rfl⟩⟩

theorem keyed_of_build (ht : t.Keyed) (h : t.build = .ok g) : g.Keyed := by
  intro symbol n hn
  rw [CallTable.node?_of_build ht h] at hn
  exact CallTable.symbol_of_node? ht hn

/-- In a table that knows the targets of its calls, these become nodes. -/
theorem closed_of_build (ht : t.Keyed) (h : t.build = .ok g)
    (hcalls : ∀ e ∈ t.calls.entries, ∀ m ∈ e.2, t.calls.contains m.symbol) : g.Closed := by
  intro symbol m hm
  rw [isBuilt_iff]
  cases hn : g.node? symbol with
  | none => simp [callsOf, hn] at hm
  | some n =>
    rw [callsOf_of_node? hn] at hm
    rw [CallTable.node?_of_build ht h, CallTable.node?_eq_some_iff] at hn
    have hin := hcalls (symbol, n.calls) (StringMap.get?_eq_some_iff.mp hn.1) m hm
    obtain ⟨calls, hget⟩ := Option.isSome_iff_exists.mp hin
    obtain ⟨definition, hdef⟩ :=
      Option.isSome_iff_exists.mp (CallTable.registered_of_build ht h m.symbol hin)
    refine ⟨⟨definition, calls⟩, ?_⟩
    rw [CallTable.node?_of_build ht h]
    exact CallTable.node?_eq_some_iff.mpr ⟨hget, hdef⟩

theorem planter_enter_of_node? {symbol : String} {caller : Option Mention} {n : Node}
    (h : g.node? symbol = some n) :
    g.planter.enter symbol caller = .ok (some ⟨.leaf n caller, n.calls⟩) := by
  simp only [planter, h]

theorem planter_enter_of_missing {symbol : String} {caller : Option Mention}
    (h : g.node? symbol = none) :
    g.planter.enter symbol caller = .error (.missingNode symbol) := by
  simp only [planter, h]

theorem planter_enter {symbol : String} {caller : Option Mention} {frame : Frame CallTree}
    (h : g.planter.enter symbol caller = .ok (some frame)) :
    ∃ n, g.node? symbol = some n ∧ frame = ⟨.leaf n caller, n.calls⟩ := by
  simp only [planter] at h
  split at h
  next n hn =>
    cases h
    exact ⟨n, hn, rfl⟩
  next => cases h

theorem planter_follows (g : CallGraph) : g.planter.Follows g.callsOf where
  all _ _ _ := rfl
  entered h := by
    obtain ⟨n, hn, rfl⟩ := planter_enter h
    exact (callsOf_of_node? hn).symm
  passed h := by
    simp only [planter] at h
    split at h <;> cases h

theorem measurer_enter (g : CallGraph) (symbol : String) (caller : Option Mention) :
    g.measurer.enter symbol caller =
      .ok (if g.callsOf symbol = [] then none else some ⟨0, g.callsOf symbol⟩) := by
  cases hn : g.node? symbol with
  | none =>
    have hnone : g.callsOf symbol = [] := by simp only [callsOf, hn]
    rw [if_pos hnone]
    simp only [measurer, hn]
  | some n =>
    rw [callsOf_of_node? hn]
    simp only [measurer, hn, List.isEmpty_iff]

theorem measurer_follows (g : CallGraph) : g.measurer.Follows g.callsOf where
  all _ _ _ := rfl
  entered h := by
    rw [measurer_enter] at h
    split at h
    next => cases h
    next => cases h; rfl
  passed h := by
    rw [measurer_enter] at h
    split at h
    next hnone => exact hnone
    next => cases h

end StaticCalls.CallGraph
