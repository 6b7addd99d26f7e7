import StaticCalls.Proofs.CallTree.Sites
import StaticCalls.Proofs.Except

/-! How high a tree is, and how its height bounds the depth that is measured: the measure takes the
calls that the tree shows, at the same time (`Measures.descends`). -/
namespace StaticCalls

namespace CallTree

/-- The generations below the top record. -/
def height : CallTree → Nat
  | ⟨_, _, _, _, children⟩ => heights children
where
  heights : List CallTree → Nat
    | [] => 0
    | t :: rest => max (t.height + 1) (heights rest)

theorem height_eq (t : CallTree) : t.height = height.heights t.children := by
  cases t
  rw [height]

theorem heights_le_iff {l : List CallTree} {n : Nat} :
    height.heights l ≤ n ↔ ∀ t ∈ l, t.height + 1 ≤ n := by
  induction l with
  | nil => simp [height.heights]
  | cons t rest ih => rw [height.heights, Nat.max_le, ih, List.forall_mem_cons]

theorem height_addChild (t c : CallTree) : (t.addChild c).height = max t.height (c.height + 1) := by
  have happend (l : List CallTree) :
      height.heights (l ++ [c]) = max (height.heights l) (c.height + 1) := by
    induction l with
    | nil => exact Nat.max_comm _ _
    | cons t rest ih => rw [List.cons_append, height.heights, height.heights, ih, Nat.max_assoc]
  rw [height_eq, height_eq t]
  exact happend t.children

theorem ofAll_append (l l' : List CallTree) :
    records.ofAll (l ++ l') = records.ofAll l ++ records.ofAll l' := by
  induction l with
  | nil => rfl
  | cons t rest ih => rw [List.cons_append, records.ofAll, records.ofAll, ih, List.append_assoc]

theorem descendants_addChild (t c : CallTree) :
    (t.addChild c).descendants = t.descendants ++ c.records := by
  have hsingle : records.ofAll [c] = c.records := List.append_nil _
  rw [descendants, addChild, ofAll_append, hsingle]
  rfl

end CallTree

namespace CallGraph
open CallTree
variable {g : CallGraph} {symbol : String} {caller : Option Mention} {visited : List CallSite}
  {t : CallTree}

/-- A tree is a bare record to which trees have been added. -/
theorem planted_of_descends {P : CallTree → Prop} (hleaf : ∀ n caller, P (.leaf n caller))
    (hchild : ∀ t c, P t → P c → P (t.addChild c)) {t' : CallTree} {pending : List Mention}
    {store : Unit} {out : Walk.Outcome GraphError Unit CallTree}
    (h : g.planter.Descends t pending visited store out) (ht : P t) (hok : out.result = .ok t') :
    P t' := by
  induction h generalizing t' with
  | close => cases hok; exact ht
  | pass _ _ ih => exact ih ht hok
  | absent _ _ _ ih => exact ih ht hok
  | refuse _ _ => cases hok
  | enter _ henter _ _ ihbelow ihrest =>
    obtain ⟨n, _, rfl⟩ := planter_enter henter
    exact ihrest (hchild _ _ ht (ihbelow (hleaf n _) rfl)) hok
  | fail _ _ _ _ => cases hok

theorem exists_descends_of_tree (h : (g.tree symbol caller visited).result = .ok (some t)) :
    ∃ n out, g.node? symbol = some n ∧
      g.planter.Descends (.leaf n caller) n.calls visited () out ∧ out.result = .ok t := by
  cases hn : g.node? symbol with
  | none =>
    rw [tree, Walk.start_of_error (planter_enter_of_missing hn)] at h
    cases h
  | some n =>
    obtain ⟨out, hout, hstart⟩ := Walk.start_of_enter (planter_enter_of_node? hn) visited ()
    rw [tree, hstart, map_eq_ok_iff] at h
    obtain ⟨t', hresult, heq⟩ := h
    cases heq
    exact ⟨n, out, rfl, hout, hresult⟩

/-- Only a root tells its depth. -/
theorem depth_eq_none_of_tree (h : (g.tree symbol caller visited).result = .ok (some t)) :
    ∀ r ∈ t.records, r.depth = none := by
  obtain ⟨n, out, _, hout, hok⟩ := exists_descends_of_tree h
  have hnone (n : Node) (caller : Option Mention) :
      ∀ r ∈ (leaf n caller).records, r.depth = none := by
    intro r hr
    cases List.mem_singleton.mp hr
    rfl
  refine planted_of_descends (P := fun t => ∀ r ∈ t.records, r.depth = none) hnone ?_ hout
    (hnone n caller) hok
  intro t c ht hc r hr
  rw [records_eq, List.mem_cons, descendants_addChild, List.mem_append] at hr
  rcases hr with rfl | hr | hr
  · exact ht t (by rw [records_eq]; exact List.mem_cons_self)
  · exact ht r (by rw [records_eq]; exact List.mem_cons_of_mem _ hr)
  · exact hc r hr

/-- A relation between a tree and what has been measured below it, kept by the records as they come:
one without calls is passed by the measure, any other one is entered. -/
structure Measures (g : CallGraph) (R : CallTree → Nat → Prop) : Prop where
  leaf : ∀ {symbol n caller}, g.node? symbol = some n → n.calls ≠ [] → R (.leaf n caller) 0
  pass : ∀ {symbol n caller t deepest}, g.node? symbol = some n → n.calls = [] → R t deepest →
    R (t.addChild (.leaf n caller)) deepest
  enter : ∀ {t c deepest below}, R t deepest → R c below →
    R (t.addChild c) (max deepest (below + 1))

namespace Measures
variable {R : CallTree → Nat → Prop}

/-- The measure follows the tree call by call. -/
theorem descends (hR : g.Measures R) {t' : CallTree} {pending : List Mention}
    {store : Unit} {out : Walk.Outcome GraphError Unit CallTree}
    (h : g.planter.Descends t pending visited store out) (hok : out.result = .ok t')
    {deepest : Nat} (ht : R t deepest) : ∃ deepest', R t' deepest' ∧
      g.measurer.Descends deepest pending visited () ⟨.ok deepest', out.visited, ()⟩ := by
  induction h generalizing t' deepest with
  | close =>
    cases hok
    exact ⟨deepest, ht, .close⟩
  | pass htakes _ ih =>
    obtain ⟨deepest', ht', hrest⟩ := ih hok ht
    exact ⟨deepest', ht', .pass htakes hrest⟩
  | absent _ henter _ _ =>
    simp only [planter] at henter
    split at henter <;> cases henter
  | refuse _ _ => cases hok
  | @enter t call pending visited _ child result visited' _ out htakes henter hbelow hrest ihbelow
      ihrest =>
    obtain ⟨n, hn, rfl⟩ := planter_enter henter
    have hcalls := callsOf_of_node? hn
    have hmeasure := g.measurer_enter call.symbol (some call)
    rw [hcalls] at hmeasure
    by_cases hnone : n.calls = []
    · rw [if_pos hnone] at hmeasure
      rw [hnone] at hbelow
      cases hbelow
      obtain ⟨deepest', ht', hafter⟩ := ihrest hok (hR.pass hn hnone ht)
      exact ⟨deepest', ht', .absent htakes hmeasure hafter⟩
    · rw [if_neg hnone] at hmeasure
      obtain ⟨below, hc, hinside⟩ := ihbelow rfl (hR.leaf hn hnone)
      obtain ⟨deepest', ht', hafter⟩ := ihrest hok (hR.enter ht hc)
      exact ⟨deepest', ht', .enter htakes hmeasure hinside hafter⟩
  | fail _ _ _ _ => cases hok

theorem depth (hR : g.Measures R) (h : (g.tree symbol caller []).result = .ok (some t)) :
    g.callsOf symbol = [] ∧ g.depth symbol = 0 ∨ ∃ deepest, R t deepest ∧
      g.depth symbol = deepest + 1 := by
  obtain ⟨n, out, hn, hout, hok⟩ := exists_descends_of_tree h
  have hmeasure := g.measurer_enter symbol none
  rw [callsOf_of_node? hn] at hmeasure ⊢
  by_cases hnone : n.calls = []
  · rw [if_pos hnone] at hmeasure
    refine .inl ⟨hnone, ?_⟩
    rw [CallGraph.depth, Walk.start_of_none hmeasure]
  · rw [if_neg hnone] at hmeasure
    obtain ⟨deepest, ht, hmeasured⟩ := hR.descends hout hok (hR.leaf hn hnone)
    obtain ⟨steps, hsteps⟩ := hmeasured.iterate []
    refine .inr ⟨deepest, ht, ?_⟩
    rw [CallGraph.depth, Walk.start_of_iterate hmeasure hsteps]
    rfl

end Measures

theorem measures_height (g : CallGraph) : g.Measures fun t deepest => deepest ≤ t.height where
  leaf _ _ := Nat.zero_le _
  pass _ _ h := by
    rw [height_addChild]
    exact Nat.le_trans h (Nat.le_max_left _ _)
  enter ht hc := by
    rw [height_addChild, Nat.max_le]
    exact ⟨Nat.le_trans ht (Nat.le_max_left _ _),
      Nat.le_trans (Nat.succ_le_succ hc) (Nat.le_max_right _ _)⟩

/-- A cycle adds one level to the depth that the tree does not show. -/
theorem depth_le_height (h : (g.tree symbol caller []).result = .ok (some t)) :
    g.depth symbol ≤ t.height + 1 := by
  rcases g.measures_height.depth h with ⟨_, hzero⟩ | ⟨deepest, hle, heq⟩
  · rw [hzero]
    exact Nat.zero_le _
  · rw [heq]
    exact Nat.succ_le_succ hle

end CallGraph
end StaticCalls
