import StaticCalls.Proofs.CallGraph.Calls
import StaticCalls.Proofs.Walk.Routes
import Mathlib.Order.Bounds.Basic
import Mathlib.Order.MinMax

/-! What the depth of a node measures. A call site is followed once, so the measure sees a chain of
calls only as far as it is the first way to its sites; it is the longest chain when one of the
longest chains is seen whole. -/
namespace StaticCalls.CallGraph
open Relation Walk
variable {g : CallGraph} {t : CallTable}

/-- No node leads back to itself. -/
def Acyclic (g : CallGraph) : Prop := ∀ symbol, ¬ TransGen g.Calls symbol symbol

theorem not_below_self (hacyclic : g.Acyclic) (call : Mention) :
    ¬ Below g.callsOf (g.callsOf call.symbol) call.site := by
  rw [below_callsOf_iff]
  rintro ⟨reached, hreached, m, hm, hsite⟩
  have hsymbol : m.symbol = call.symbol := congrArg CallSite.symbol hsite
  exact hacyclic call.symbol (TransGen.tail' hreached ⟨m, hm, hsymbol⟩)

/-- A site that has not been visited, and whose target has calls. -/
def Fresh (g : CallGraph) (visited : List CallSite) (x : CallSite) : Prop :=
  x ∉ visited ∧ g.callsOf x.symbol ≠ []

/-- Taking the calls deepens the measure to the longest first route that ends at a fresh site. -/
def Deepens (g : CallGraph) (calls : List Mention) (visited : List CallSite)
    (deepest deepest' : Nat) : Prop :=
  ∀ k, k ≤ deepest' ↔ k ≤ deepest ∨ FirstReaches g.callsOf calls (g.Fresh visited) k

section Step
variable {call : Mention} {rest : List Mention} {visited visited' : List CallSite}
  {deepest below deepest' : Nat}

theorem deepens_pass (hacyclic : g.Acyclic) (hsettled : Settled g.callsOf (call :: rest) visited)
    (hseen : call.site ∈ visited) (h : g.Deepens rest visited deepest deepest') :
    g.Deepens (call :: rest) visited deepest deepest' := by
  have hreach : ∀ x, ReflTransGen (Leads g.callsOf) call.site x → x ∈ visited := fun x =>
    hsettled.mem_of_reaches hseen ⟨call, List.mem_cons_self, .refl⟩
  intro k
  have hfirst : ¬ (g.Fresh visited call.site ∧ k ≤ 1) := fun h => h.1.1 hseen
  have hbelow : ¬ FirstReaches g.callsOf (g.callsOf call.symbol) (g.Fresh visited) (k - 1) :=
    not_firstReaches fun x hx hfresh => hfresh.1 (hreach x (reaches_site_iff.mpr (.inr hx)))
  have hrest : FirstReaches g.callsOf rest
      (fun x => g.Fresh visited x ∧ ¬ ReflTransGen (Leads g.callsOf) call.site x) k ↔
        FirstReaches g.callsOf rest (g.Fresh visited) k :=
    firstReaches_congr fun x _ => and_iff_left_of_imp fun hfresh hx => hfresh.1 (hreach x hx)
  rw [h k, firstReaches_cons_iff (not_below_self hacyclic call), hrest, or_iff_right hfirst,
    or_iff_right hbelow]

theorem deepens_absent (hacyclic : g.Acyclic) (hnone : g.callsOf call.symbol = [])
    (h : g.Deepens rest (call.site :: visited) deepest deepest') :
    g.Deepens (call :: rest) visited deepest deepest' := by
  intro k
  have hfirst : ¬ (g.Fresh visited call.site ∧ k ≤ 1) := fun h => h.1.2 hnone
  have hbelow : ¬ FirstReaches g.callsOf (g.callsOf call.symbol) (g.Fresh visited) (k - 1) := by
    rw [hnone]
    exact not_firstReaches_nil
  have hrest : FirstReaches g.callsOf rest
      (fun x => g.Fresh visited x ∧ ¬ ReflTransGen (Leads g.callsOf) call.site x) k ↔
        FirstReaches g.callsOf rest (g.Fresh (call.site :: visited)) k := by
    refine firstReaches_congr fun x _ => ?_
    have hnil : ¬ Below g.callsOf [] x := fun ⟨_, hm, _⟩ => List.not_mem_nil hm
    rw [reaches_site_iff, hnone, or_iff_left hnil, Fresh, Fresh, List.mem_cons, not_or]
    tauto
  rw [h k, firstReaches_cons_iff (not_below_self hacyclic call), hrest, or_iff_right hfirst,
    or_iff_right hbelow]

theorem deepens_enter (hacyclic : g.Acyclic) (hnew : call.site ∉ visited)
    (hcalls : g.callsOf call.symbol ≠ [])
    (hchild : g.Deepens (g.callsOf call.symbol) (call.site :: visited) 0 below)
    (hvisited : ∀ x, x ∈ visited' ↔
      x ∈ call.site :: visited ∨ Below g.callsOf (g.callsOf call.symbol) x)
    (h : g.Deepens rest visited' (max deepest (below + 1)) deepest') :
    g.Deepens (call :: rest) visited deepest deepest' := by
  have hself := not_below_self hacyclic call
  intro k
  -- the route that stops at the call accounts for the body that is entered, however empty it is
  have hfirst : g.Fresh visited call.site ∧ k ≤ 1 ↔ k - 1 ≤ 0 := by
    rw [and_iff_right ⟨hnew, hcalls⟩]
    omega
  have hbelow : FirstReaches g.callsOf (g.callsOf call.symbol) (g.Fresh visited) (k - 1) ↔
      FirstReaches g.callsOf (g.callsOf call.symbol) (g.Fresh (call.site :: visited)) (k - 1) := by
    refine firstReaches_congr fun x hx => ?_
    have hne : x ≠ call.site := fun heq => hself (heq ▸ hx)
    simp only [Fresh, List.mem_cons, hne, false_or]
  have hrest : FirstReaches g.callsOf rest
      (fun x => g.Fresh visited x ∧ ¬ ReflTransGen (Leads g.callsOf) call.site x) k ↔
        FirstReaches g.callsOf rest (g.Fresh visited') k := by
    refine firstReaches_congr fun x _ => ?_
    rw [reaches_site_iff, Fresh, Fresh, hvisited, List.mem_cons]
    tauto
  have hmax : k ≤ max deepest (below + 1) ↔ k ≤ deepest ∨ k - 1 ≤ below := by omega
  rw [h k, hmax, hchild (k - 1), firstReaches_cons_iff hself, hrest, hbelow, hfirst, or_assoc,
    or_assoc]

end Step

theorem deepens_of_descends (hacyclic : g.Acyclic) {deepest : Nat} {calls : List Mention}
    {visited : List CallSite} {store : Unit} {out : Outcome Empty Unit Nat}
    (h : g.measurer.Descends deepest calls visited store out)
    (hsettled : Settled g.callsOf calls visited) :
    ∃ deepest', out.result = .ok deepest' ∧ g.Deepens calls visited deepest deepest' := by
  have hw := g.measurer_follows
  -- without cycles a site that is still being walked does not lie below the calls to take
  induction h with
  | @close deepest visited store =>
    exact ⟨deepest, rfl, fun k => (or_iff_left not_firstReaches_nil).symm⟩
  | pass htakes _ ih =>
    have hseen := hw.mem_of_takes_eq_false htakes
    obtain ⟨deepest', hok, hdeep⟩ := ih hsettled.tail
    exact ⟨deepest', hok, deepens_pass hacyclic hsettled hseen hdeep⟩
  | absent htakes henter _ ih =>
    have hnone := hw.passed henter
    obtain ⟨deepest', hok, hdeep⟩ := ih (hsettled.absent hnone)
    exact ⟨deepest', hok, deepens_absent hacyclic hnone hdeep⟩
  | refuse _ henter => nomatch henter
  | @enter deepest call rest visited store child below visited' store' out htakes henter hchild _
      ihchild ihrest =>
    rw [measurer_enter] at henter
    split at henter
    next => cases henter
    next hcalls =>
      cases henter
      have hnew := hw.takes_iff.mp htakes
      have hsettled' := hsettled.enter (not_below_self hacyclic call)
      have hvisited := fun x => hchild.mem_visited_iff hw hsettled' rfl (x := x)
      obtain ⟨below', hbelow, hdeep⟩ := ihchild hsettled'
      cases hbelow
      obtain ⟨deepest', hok, hdeep'⟩ := ihrest (hsettled.leave hvisited)
      exact ⟨deepest', hok, deepens_enter hacyclic hnew hcalls hdeep hvisited hdeep'⟩
  | @fail _ _ _ _ _ _ e _ _ _ _ _ _ => exact e.elim

theorem depth_of_callsOf_eq_nil {symbol : String} (h : g.callsOf symbol = []) :
    g.depth symbol = 0 := by
  have henter : g.measurer.enter symbol none = .ok none := by rw [measurer_enter, if_pos h]
  rw [depth, start_of_none henter]

theorem exists_depth (hacyclic : g.Acyclic) {symbol : String} (h : g.callsOf symbol ≠ []) :
    ∃ deepest, g.depth symbol = deepest + 1 ∧ g.Deepens (g.callsOf symbol) [] 0 deepest := by
  have henter : g.measurer.enter symbol none = .ok (some ⟨0, g.callsOf symbol⟩) := by
    rw [measurer_enter, if_neg h]
  obtain ⟨out, hout, hstart⟩ := start_of_enter henter [] ()
  obtain ⟨deepest, hok, hdeep⟩ := deepens_of_descends hacyclic hout (settled_nil _)
  refine ⟨deepest, ?_, hdeep⟩
  rw [depth, hstart, hok]
  rfl

/-! ### Chains -/

/-- Calls that follow one another from the body of the symbol on, each given by its position. -/
def Chain (g : CallGraph) (symbol : String) (chain : List Nat) : Prop :=
  chain = [] ∨ ∃ x, Route g.callsOf (g.callsOf symbol) chain x

/-- Up to the last call, the chain is the first way to the site that it has come to. -/
def IsSeen (g : CallGraph) (symbol : String) (chain : List Nat) : Prop :=
  chain.dropLast = [] ∨ ∃ x, IsFirst g.callsOf (g.callsOf symbol) chain.dropLast x

theorem chain_eq_nil_or_snoc {symbol : String} {chain : List Nat} (hchain : g.Chain symbol chain)
    (hseen : g.IsSeen symbol chain) :
    chain = [] ∨ g.callsOf symbol ≠ [] ∧ (chain.length = 1 ∨
      ∃ route x, IsFirst g.callsOf (g.callsOf symbol) route x ∧ g.callsOf x.symbol ≠ [] ∧
        chain.length = route.length + 1) := by
  rcases hchain with rfl | ⟨y, hroute⟩
  · exact .inl rfl
  have hcalls : g.callsOf symbol ≠ [] := by
    obtain ⟨m, hm, _⟩ := below_iff_route.mpr ⟨chain, hroute⟩
    exact List.ne_nil_of_mem hm
  have hsnoc := List.dropLast_concat_getLast hroute.ne_nil
  have hlength : chain.length = chain.dropLast.length + 1 := by
    rw [← hsnoc]
    simp
  refine .inr ⟨hcalls, ?_⟩
  rcases hseen with hnil | ⟨x, hfirst⟩
  · rw [hnil] at hlength
    exact .inl hlength
  · rw [← hsnoc] at hroute
    obtain ⟨x', hroute', hnext⟩ := hroute.of_snoc hfirst.isRoute.ne_nil
    rw [← hfirst.isRoute.unique hroute'] at hnext
    exact .inr ⟨_, x, hfirst, hnext, hlength⟩

theorem exists_seen_of_ne_nil {symbol : String} (hcalls : g.callsOf symbol ≠ []) :
    ∃ chain, g.Chain symbol chain ∧ g.IsSeen symbol chain ∧ chain.length = 1 := by
  obtain ⟨m, rest, heq⟩ := List.exists_cons_of_ne_nil hcalls
  have hroute : Route g.callsOf (g.callsOf symbol) [0] m.site := .stop (by rw [heq]; rfl)
  exact ⟨[0], .inr ⟨_, hroute⟩, .inl rfl, rfl⟩

theorem exists_seen_of_isFirst {symbol : String} {route : List Nat} {x : CallSite}
    (hfirst : IsFirst g.callsOf (g.callsOf symbol) route x) (hnext : g.callsOf x.symbol ≠ []) :
    ∃ chain, g.Chain symbol chain ∧ g.IsSeen symbol chain ∧ chain.length = route.length + 1 := by
  obtain ⟨m, rest, heq⟩ := List.exists_cons_of_ne_nil hnext
  have hcall : (g.callsOf x.symbol)[0]? = some m := by rw [heq]; rfl
  refine ⟨route ++ [0], .inr ⟨_, hfirst.isRoute.snoc hcall⟩, .inr ⟨x, ?_⟩, ?_⟩
  · rw [List.dropLast_concat]
    exact hfirst
  · rw [List.length_append]
    rfl

/-- The depth is the greatest length of the chains that the measure sees. -/
theorem isGreatest_seen (hacyclic : g.Acyclic) (symbol : String) :
    IsGreatest {k | ∃ chain, g.Chain symbol chain ∧ g.IsSeen symbol chain ∧ chain.length = k}
      (g.depth symbol) := by
  by_cases hcalls : g.callsOf symbol = []
  · rw [depth_of_callsOf_eq_nil hcalls]
    refine ⟨⟨[], .inl rfl, .inl rfl, rfl⟩, ?_⟩
    rintro _ ⟨chain, hchain, hseen, rfl⟩
    rcases chain_eq_nil_or_snoc hchain hseen with rfl | ⟨hne, _⟩
    · exact Nat.le_refl 0
    · exact absurd hcalls hne
  · obtain ⟨deepest, hdepth, hdeep⟩ := exists_depth hacyclic hcalls
    have hbound : ∀ route x, IsFirst g.callsOf (g.callsOf symbol) route x →
        g.callsOf x.symbol ≠ [] → route.length ≤ deepest := fun route x hfirst hnext =>
      (hdeep _).mpr (.inr ⟨route, x, hfirst, ⟨List.not_mem_nil, hnext⟩, Nat.le_refl _⟩)
    rw [hdepth]
    constructor
    · rcases (hdeep deepest).mp (Nat.le_refl _) with hzero | ⟨route, x, hfirst, ⟨_, hnext⟩, hk⟩
      · rw [Nat.le_zero.mp hzero]
        exact exists_seen_of_ne_nil hcalls
      · rw [Nat.le_antisymm hk (hbound route x hfirst hnext)]
        exact exists_seen_of_isFirst hfirst hnext
    · rintro _ ⟨chain, hchain, hseen, rfl⟩
      rcases chain_eq_nil_or_snoc hchain hseen with
        rfl | ⟨_, hone | ⟨route, x, hfirst, hnext, hlength⟩⟩
      · exact Nat.zero_le _
      · omega
      · have hle := hbound route x hfirst hnext
        omega

/-- The length of the longest chains from the symbol on. -/
def IsLongest (g : CallGraph) (symbol : String) (length : Nat) : Prop :=
  IsGreatest {k | ∃ chain, g.Chain symbol chain ∧ chain.length = k} length

theorem isLongest_depth_iff (hacyclic : g.Acyclic) (symbol : String) :
    g.IsLongest symbol (g.depth symbol) ↔
      ∃ chain, g.Chain symbol chain ∧ g.IsSeen symbol chain ∧ g.IsLongest symbol chain.length := by
  obtain ⟨⟨chain, hchain, hseen, hlength⟩, hbound⟩ := isGreatest_seen hacyclic symbol
  constructor
  · intro hlongest
    rw [← hlength] at hlongest
    exact ⟨chain, hchain, hseen, hlongest⟩
  · rintro ⟨longest, hlongest, hseen', hgreatest⟩
    refine ⟨⟨chain, hchain, hlength⟩, fun k hk => ?_⟩
    exact Nat.le_trans (hgreatest.2 hk) (hbound ⟨longest, hlongest, hseen', rfl⟩)

/-! ### Depth by the depths of the targets -/

theorem chain_cons_iff {symbol : String} {i : Nat} {chain : List Nat} :
    g.Chain symbol (i :: chain) ↔
      ∃ call, (g.callsOf symbol)[i]? = some call ∧ g.Chain call.symbol chain := by
  simp only [Chain, route_cons_iff, reduceCtorEq, false_or]
  constructor
  · rintro ⟨x, call, hcall, ⟨hnil, _⟩ | hrest⟩
    · exact ⟨call, hcall, .inl hnil⟩
    · exact ⟨call, hcall, .inr ⟨x, hrest⟩⟩
  · rintro ⟨call, hcall, hnil | ⟨x, hrest⟩⟩
    · exact ⟨call.site, call, hcall, .inl ⟨hnil, rfl⟩⟩
    · exact ⟨x, call, hcall, .inr hrest⟩

/-- One more than the greatest depth of a target, and zero where there are no calls. -/
def depthOfTargets (g : CallGraph) (symbol : String) : Nat :=
  ((g.callsOf symbol).map fun m => g.depth m.symbol + 1).foldr max 0

theorem le_foldr_max_iff {l : List Nat} {k : Nat} :
    k ≤ l.foldr max 0 ↔ k = 0 ∨ ∃ a ∈ l, k ≤ a := by
  induction l with
  | nil => simp
  | cons a rest ih =>
    rw [List.foldr_cons, le_max_iff, ih]
    simp only [List.mem_cons, exists_eq_or_imp]
    tauto

theorem le_depthOfTargets_iff {symbol : String} {k : Nat} : k ≤ g.depthOfTargets symbol ↔
    k = 0 ∨ ∃ m ∈ g.callsOf symbol, k ≤ g.depth m.symbol + 1 := by
  rw [depthOfTargets, le_foldr_max_iff]
  simp only [List.mem_map, exists_exists_and_eq_and]

section Targets
variable (htargets : ∀ symbol, g.depth symbol = g.depthOfTargets symbol)
include htargets

theorem length_le_depth {symbol : String} {chain : List Nat} (hchain : g.Chain symbol chain) :
    chain.length ≤ g.depth symbol := by
  induction chain generalizing symbol with
  | nil => exact Nat.zero_le _
  | cons i chain ih =>
    obtain ⟨call, hcall, hrest⟩ := chain_cons_iff.mp hchain
    rw [htargets, le_depthOfTargets_iff]
    exact .inr ⟨call, List.mem_of_getElem? hcall, Nat.succ_le_succ (ih hrest)⟩

theorem exists_chain_of_le_depth {symbol : String} {k : Nat} (hk : k ≤ g.depth symbol) :
    ∃ chain, g.Chain symbol chain ∧ chain.length = k := by
  induction k generalizing symbol with
  | zero => exact ⟨[], .inl rfl, rfl⟩
  | succ k ih =>
    rw [htargets, le_depthOfTargets_iff] at hk
    rcases hk with hzero | ⟨m, hm, hle⟩
    · cases hzero
    · obtain ⟨i, hi⟩ := List.mem_iff_getElem?.mp hm
      obtain ⟨chain, hchain, rfl⟩ := ih (Nat.le_of_succ_le_succ hle)
      exact ⟨i :: chain, chain_cons_iff.mpr ⟨m, hi, hchain⟩, rfl⟩

end Targets

/-- All depths are longest chains if each of them can be read off those of the targets. -/
theorem forall_isLongest_depth_iff : (∀ symbol, g.IsLongest symbol (g.depth symbol)) ↔
    ∀ symbol, g.depth symbol = g.depthOfTargets symbol := by
  constructor
  · intro h symbol
    refine eq_of_forall_le_iff fun k => ?_
    rw [le_depthOfTargets_iff]
    constructor
    · intro hk
      obtain ⟨chain, hchain, hlength⟩ := (h symbol).1
      rw [← hlength] at hk
      cases chain with
      | nil => exact .inl (Nat.le_zero.mp hk)
      | cons i chain =>
        obtain ⟨m, hm, hrest⟩ := chain_cons_iff.mp hchain
        have hle : chain.length ≤ g.depth m.symbol := (h m.symbol).2 ⟨chain, hrest, rfl⟩
        rw [List.length_cons] at hk
        exact .inr ⟨m, List.mem_of_getElem? hm, by omega⟩
    · rintro (rfl | ⟨m, hm, hk⟩)
      · exact Nat.zero_le _
      · obtain ⟨i, hi⟩ := List.mem_iff_getElem?.mp hm
        obtain ⟨chain, hchain, hlength⟩ := (h m.symbol).1
        have hcons : g.Chain symbol (i :: chain) := chain_cons_iff.mpr ⟨m, hi, hchain⟩
        have hle : (i :: chain).length ≤ g.depth symbol := (h symbol).2 ⟨_, hcons, rfl⟩
        rw [List.length_cons, hlength] at hle
        exact Nat.le_trans hk hle
  · intro htargets symbol
    refine ⟨exists_chain_of_le_depth htargets (Nat.le_refl _), ?_⟩
    rintro _ ⟨chain, hchain, rfl⟩
    exact length_le_depth htargets hchain

/-- What depths tell about chains. -/
structure MeasuresChains (g : CallGraph) : Prop where
  /-- The depth of a node is the greatest length of the chains that are seen. -/
  seen : ∀ symbol, IsGreatest
    {k | ∃ chain, g.Chain symbol chain ∧ g.IsSeen symbol chain ∧ chain.length = k} (g.depth symbol)
  /-- It is the length of the longest chain exactly when one of the longest chains is seen. -/
  longest_iff : ∀ symbol, g.IsLongest symbol (g.depth symbol) ↔
    ∃ chain, g.Chain symbol chain ∧ g.IsSeen symbol chain ∧ g.IsLongest symbol chain.length
  /-- This holds of all nodes exactly when each depth can be read off those of the targets. -/
  targets_iff : (∀ symbol, g.IsLongest symbol (g.depth symbol)) ↔
    ∀ symbol, g.depth symbol = g.depthOfTargets symbol

theorem depths_measure_seen_chains (hacyclic : g.Acyclic) : g.MeasuresChains :=
  ⟨isGreatest_seen hacyclic, isLongest_depth_iff hacyclic, forall_isLongest_depth_iff⟩

/-! ### A detour to a shared callee -/

theorem acyclic_of_ascending (h : ∀ symbol, ∀ m ∈ g.callsOf symbol, symbol < m.symbol) :
    g.Acyclic := by
  have hlt {symbol symbol' : String} (hcalls : TransGen g.Calls symbol symbol') :
      symbol < symbol' := by
    induction hcalls with
    | single hcall =>
      obtain ⟨m, hm, rfl⟩ := hcall
      exact h _ m hm
    | tail _ hcall ih =>
      obtain ⟨m, hm, rfl⟩ := hcall
      exact String.lt_trans ih (h _ m hm)
  intro symbol hcycle
  exact String.lt_irrefl symbol (hlt hcycle)

/-- The node `e` is called from `b` and, by way of `d`, from `c`; the walk comes to it from `b`. -/
def detour : CallTable :=
  let body (symbol : String) (line : UInt32) : String × Mention :=
    (symbol, ⟨"detour", .definition symbol (.ofCoordinates line 0 line 1) none⟩)
  let call (symbol : String) (line : UInt32) : Mention :=
    ⟨"detour", .reference symbol (.ofCoordinates line 0 line 1)⟩
  { definitions := .ofList [body "a" 0, body "b" 10, body "c" 20, body "d" 30, body "e" 40,
      body "f" 50, body "g" 60]
    calls := .ofList [("a", [call "b" 1, call "c" 2]), ("b", [call "e" 11]), ("c", [call "d" 21]),
      ("d", [call "e" 31]), ("e", [call "f" 41]), ("f", [call "g" 51]), ("g", [])] }

theorem exists_build_detour : detour.Keyed ∧ ∃ g, detour.build = .ok g ∧ g.Closed ∧ g.Acyclic ∧
    g.nodes = detour.nodes := by
  have hkeyed : detour.Keyed := CallTable.keyed_of_entries (by decide)
  have hregistered : detour.Registered := CallTable.registered_of_entries (by decide)
  obtain ⟨g, hg⟩ := CallTable.build_of_registered hkeyed hregistered
  have hclosed : g.Closed := closed_of_build hkeyed hg (by decide)
  have hcalls : ∀ e ∈ detour.calls.entries, ∀ m ∈ e.2, e.1 < m.symbol := by decide
  refine ⟨hkeyed, g, hg, hclosed, acyclic_of_ascending fun symbol m hm => ?_,
    CallTable.nodes_of_build hkeyed hg⟩
  cases hn : g.node? symbol with
  | none => simp [callsOf, hn] at hm
  | some n =>
    rw [callsOf_of_node? hn] at hm
    rw [CallTable.node?_of_build hkeyed hg, CallTable.node?_eq_some_iff] at hn
    exact hcalls (symbol, n.calls) (StringMap.get?_eq_some_iff.mp hn.1) m hm

/-- The longest chain goes by way of `d`, but what `e` calls has been followed from `b` before. -/
theorem detour_depth_not_longest : detour.Keyed ∧ ∃ g, detour.build = .ok g ∧ g.Closed ∧
    g.Acyclic ∧ ¬ g.IsLongest "a" (g.depth "a") := by
  obtain ⟨hkeyed, ⟨nodes, callers⟩, hg, hclosed, hacyclic, hnodes⟩ := exists_build_detour
  refine ⟨hkeyed, _, hg, hclosed, hacyclic, fun hlongest => ?_⟩
  cases hnodes
  have henter : (measurer ⟨detour.nodes, callers⟩).enter "a" none =
      .ok (some ⟨0, callsOf ⟨detour.nodes, callers⟩ "a"⟩) := rfl
  have hdepth : depth ⟨detour.nodes, callers⟩ "a" = 4 := by
    obtain ⟨out, hout, hresult⟩ : ∃ out, (measurer ⟨detour.nodes, callers⟩).iterate 20
        ⟨⟨0, callsOf ⟨detour.nodes, callers⟩ "a"⟩, [], [], ()⟩ = .inl out ∧ out.result = .ok 3 :=
      ⟨_, rfl, rfl⟩
    rw [depth, start_of_iterate henter hout, hresult]
    rfl
  have hchain : Chain ⟨detour.nodes, callers⟩ "a" [1, 0, 0, 0, 0] :=
    .inr ⟨_, .go rfl (.go rfl (.go rfl (.go rfl (.stop rfl))))⟩
  have hle : 5 ≤ depth ⟨detour.nodes, callers⟩ "a" := hlongest.2 ⟨_, hchain, rfl⟩
  omega

theorem detour_depths_measure_seen_chains :
    ∃ g, detour.build = .ok g ∧ g.Acyclic ∧ g.MeasuresChains := by
  obtain ⟨_, g, hg, _, hacyclic, _⟩ := exists_build_detour
  exact ⟨g, hg, hacyclic, depths_measure_seen_chains hacyclic⟩

end StaticCalls.CallGraph
