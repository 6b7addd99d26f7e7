import StaticCalls.Proofs.CallTree.Height

/-! Trees by recursion. The row of children below a record is grown call by call: a call whose site
has been shown is passed by, any other one is shown and leads to a tree of its own. The stack
machine comes to the same tree, or to the same failure, with the same sites shown
(`tree_eq_grow`). -/
namespace StaticCalls

/-- What has been grown, and the sites shown by then. No site that was shown before is forgotten. -/
structure Growth (α : Type) (before : List CallSite) where
  result : Except GraphError α
  visited : List CallSite
  kept : before ⊆ visited

namespace Growth
variable {α β : Type} {before middle : List CallSite}

def map (f : α → β) (r : Growth α before) : Growth β before := { r with result := r.result.map f }

/-- The same growth, seen from a time when less had been shown. -/
def since (h : before ⊆ middle) (r : Growth α middle) : Growth α before :=
  { r with kept := List.Subset.trans h r.kept }

end Growth

namespace CallTree

def addChildren (t : CallTree) (row : List CallTree) : CallTree :=
  { t with children := t.children ++ row }

theorem addChildren_nil (t : CallTree) : t.addChildren [] = t := by
  cases t
  rw [addChildren, List.append_nil]

theorem addChildren_addChild (t child : CallTree) (row : List CallTree) :
    (t.addChild child).addChildren row = t.addChildren (child :: row) := by
  simp only [addChildren, addChild, List.append_assoc, List.singleton_append]

end CallTree

namespace CallGraph
open Walk (unvisited)
variable {g : CallGraph} {symbol : String} {caller : Option Mention} {visited : List CallSite}

theorem unvisited_lt_of_new {call : Mention} (hmem : call.site ∈ g.sites)
    (hnew : call.site ∉ visited) :
    unvisited g.sites (call.site :: visited) < unvisited g.sites visited :=
  Walk.unvisited_cons_lt hmem (by simpa using hnew)

mutual

/-- The tree of a symbol, reached by a call or by none. -/
def grow (g : CallGraph) (symbol : String) (caller : Option Mention) (visited : List CallSite) :
    Growth CallTree visited :=
  match hn : g.node? symbol with
  | none => ⟨.error (.missingNode symbol), visited, List.Subset.refl _⟩
  | some n =>
      (g.growEach n.calls (site_mem_sites hn) visited).map (CallTree.leaf n caller).addChildren
termination_by (unvisited g.sites visited, 1, 0)
decreasing_by exact .right _ (.left _ _ (by decide))

/-- The children that the calls of a body lead to, one after the other. -/
def growEach (g : CallGraph) (calls : List Mention) (h : ∀ m ∈ calls, m.site ∈ g.sites)
    (visited : List CallSite) : Growth (List CallTree) visited :=
  match calls with
  | [] => ⟨.ok [], visited, List.Subset.refl _⟩
  | call :: rest =>
      have hrest := (List.forall_mem_cons.mp h).2
      if _hseen : call.site ∈ visited then g.growEach rest hrest visited
      else
        match g.grow call.symbol (some call) (call.site :: visited) with
        | ⟨.error e, visited', hkept⟩ => ⟨.error e, visited', List.subset_of_cons_subset hkept⟩
        | ⟨.ok child, visited', hkept⟩ =>
            ((g.growEach rest hrest visited').map (child :: ·)).since
              (List.subset_of_cons_subset hkept)
termination_by (unvisited g.sites visited, 0, calls.length)
decreasing_by
  -- only the calls behind one that is passed by are taken with the same sites shown
  · exact .right _ (.right _ (by simp))
  · exact .left _ _ (unvisited_lt_of_new (List.forall_mem_cons.mp h).1 _hseen)
  · exact .left _ _ (Nat.lt_of_le_of_lt (Walk.unvisited_le_of_subset _ hkept)
      (unvisited_lt_of_new (List.forall_mem_cons.mp h).1 _hseen))

end

theorem grow_of_missing (h : g.node? symbol = none) :
    g.grow symbol caller visited = ⟨.error (.missingNode symbol), visited, List.Subset.refl _⟩ := by
  rw [grow]
  split
  next => rfl
  next n hn => rw [h] at hn; cases hn

theorem grow_of_node? {n : Node} (h : g.node? symbol = some n) : g.grow symbol caller visited =
    (g.growEach n.calls (site_mem_sites h) visited).map (CallTree.leaf n caller).addChildren := by
  rw [grow]
  split
  next hn => rw [h] at hn; cases hn
  next n' hn =>
    rw [h] at hn
    cases hn
    rfl

section GrowEach
variable {call : Mention} {rest : List Mention} {h : ∀ m ∈ call :: rest, m.site ∈ g.sites}
  {visited' : List CallSite} {hkept : call.site :: visited ⊆ visited'}

theorem growEach_nil {h : ∀ m ∈ ([] : List Mention), m.site ∈ g.sites} :
    g.growEach [] h visited = ⟨.ok [], visited, List.Subset.refl _⟩ := by
  rw [growEach]

theorem growEach_of_seen (hseen : call.site ∈ visited) : g.growEach (call :: rest) h visited =
    g.growEach rest (List.forall_mem_cons.mp h).2 visited := by
  rw [growEach, dif_pos hseen]

theorem growEach_of_error {e : GraphError} (hnew : call.site ∉ visited)
    (hgrow : g.grow call.symbol (some call) (call.site :: visited) = ⟨.error e, visited', hkept⟩) :
    g.growEach (call :: rest) h visited =
      ⟨.error e, visited', List.subset_of_cons_subset hkept⟩ := by
  rw [growEach, dif_neg hnew, hgrow]

theorem growEach_of_ok {child : CallTree} (hnew : call.site ∉ visited)
    (hgrow : g.grow call.symbol (some call) (call.site :: visited) = ⟨.ok child, visited', hkept⟩) :
    g.growEach (call :: rest) h visited =
      ((g.growEach rest (List.forall_mem_cons.mp h).2 visited').map (child :: ·)).since
        (List.subset_of_cons_subset hkept) := by
  rw [growEach, dif_neg hnew, hgrow]

end GrowEach

/-! ### The walk -/

theorem planter_takes {t : CallTree} {call : Mention} (h : call.site ∉ visited) :
    g.planter.takes () t visited call = true :=
  g.planter_follows.takes_iff.mpr h

theorem planter_passes {t : CallTree} {call : Mention} (h : call.site ∈ visited) :
    g.planter.takes () t visited call = false := by
  rw [← Bool.not_eq_true, g.planter_follows.takes_iff]
  exact not_not_intro h

/-- The walk of a body gathers the row of its children behind those that are there. -/
theorem descends_growEach : ∀ (calls : List Mention) (h : ∀ m ∈ calls, m.site ∈ g.sites)
    (visited : List CallSite) (t : CallTree), g.planter.Descends t calls visited ()
      ⟨(g.growEach calls h visited).result.map t.addChildren,
        (g.growEach calls h visited).visited, ()⟩ := by
  refine (grow.mutual_induct g
    (fun symbol caller visited => ∀ n, g.node? symbol = some n →
      g.planter.Descends (.leaf n caller) n.calls visited ()
        ⟨(g.grow symbol caller visited).result, (g.grow symbol caller visited).visited, ()⟩)
    (fun calls h visited => ∀ t : CallTree, g.planter.Descends t calls visited ()
      ⟨(g.growEach calls h visited).result.map t.addChildren,
        (g.growEach calls h visited).visited, ()⟩)
    ?missing ?node ?done ?seen ?failed ?grown).2
  case missing =>
    intro symbol caller visited hnone n hn
    rw [hnone] at hn
    cases hn
  case node =>
    intro symbol caller visited n hn ih n' hn'
    rw [hn] at hn'
    cases hn'
    rw [grow_of_node? hn]
    exact ih (.leaf n caller)
  case done =>
    intro visited h _ t
    rw [growEach_nil]
    show g.planter.Descends t [] visited () ⟨.ok (t.addChildren []), visited, ()⟩
    rw [CallTree.addChildren_nil]
    exact .close
  case seen =>
    intro visited call rest h _ hseen _ ih t
    rw [growEach_of_seen hseen]
    exact .pass (planter_passes hseen) (ih t)
  case failed =>
    intro visited call rest h _ hnew e visited' hkept hgrow _ ih t
    rw [growEach_of_error hnew hgrow]
    rw [hgrow] at ih
    cases hn : g.node? call.symbol with
    | none =>
      rw [grow_of_missing hn] at hgrow
      cases hgrow
      exact .refuse (planter_takes hnew) (planter_enter_of_missing hn)
    | some n => exact .fail (planter_takes hnew) (planter_enter_of_node? hn) (ih n hn)
  case grown =>
    intro visited call rest h _ hnew child visited' hkept hgrow _ ihchild ihrest t
    rw [growEach_of_ok hnew hgrow]
    rw [hgrow] at ihchild
    cases hn : g.node? call.symbol with
    | none =>
      rw [grow_of_missing hn] at hgrow
      cases hgrow
    | some n =>
      refine .enter (planter_takes hnew) (planter_enter_of_node? hn) (ihchild n hn) ?_
      have hrow : ∀ r : Except GraphError (List CallTree),
          (r.map (child :: ·)).map t.addChildren = r.map (t.addChild child).addChildren := by
        intro r
        cases r with
        | error e => rfl
        | ok row => exact congrArg Except.ok (t.addChildren_addChild child row).symm
      show g.planter.Descends (t.addChild child) rest visited' () ⟨(Except.map _ _).map _, _, ()⟩
      rw [hrow]
      exact ihrest (t.addChild child)

/-! ### The first target without a node -/

/-- How a growth ends. The sites that it has shown, last one first, lead to nodes; where it fails,
one more leads to none, and the failure names its target. -/
inductive Ends {α : Type} (g : CallGraph) (before : List CallSite) :
    Except GraphError α → List CallSite → Prop where
  | whole {a shown} (hshown : ∀ x ∈ shown, g.isBuilt x.symbol) :
      Ends g before (.ok a) (shown ++ before)
  | stuck {shown x} (hshown : ∀ y ∈ shown, g.isBuilt y.symbol) (hx : ¬ g.isBuilt x.symbol) :
      Ends g before (.error (.missingNode x.symbol)) (x :: shown ++ before)

namespace Ends
variable {α β : Type} {before shown : List CallSite} {result : Except GraphError α}

theorem map (f : α → β) (h : g.Ends before result visited) :
    g.Ends before (result.map f) visited := by
  cases h with
  | whole hshown => exact .whole hshown
  | stuck hshown hx => exact .stuck hshown hx

/-- A failure is the same whatever was to be grown. -/
theorem of_error {e : GraphError} (h : @Ends α g before (.error e) visited) :
    @Ends β g before (.error e) visited := by
  cases h with
  | stuck hshown hx => exact .stuck hshown hx

theorem since (hshown : ∀ x ∈ shown, g.isBuilt x.symbol)
    (h : g.Ends (shown ++ before) result visited) : g.Ends before result visited := by
  cases h with
  | @whole _ shown' hshown' =>
    rw [← List.append_assoc]
    exact .whole (List.forall_mem_append.mpr ⟨hshown', hshown⟩)
  | @stuck shown' x hshown' hx =>
    rw [List.cons_append, ← List.append_assoc]
    exact .stuck (List.forall_mem_append.mpr ⟨hshown', hshown⟩) hx

end Ends

theorem ends_grow (caller : Option Mention) (visited : List CallSite) (h : g.isBuilt symbol) :
    g.Ends visited (g.grow symbol caller visited).result (g.grow symbol caller visited).visited := by
  revert h
  refine (grow.mutual_induct g
    (fun symbol caller visited => g.isBuilt symbol →
      g.Ends visited (g.grow symbol caller visited).result (g.grow symbol caller visited).visited)
    (fun calls h visited =>
      g.Ends visited (g.growEach calls h visited).result (g.growEach calls h visited).visited)
    ?missing ?node ?done ?seen ?failed ?grown).1 symbol caller visited
  case missing =>
    intro symbol caller visited hnone hbuilt
    exact absurd hbuilt (not_isBuilt_iff.mpr hnone)
  case node =>
    intro symbol caller visited n hn ih _
    rw [grow_of_node? hn]
    exact ih.map _
  case done =>
    intro visited h _
    rw [growEach_nil]
    exact .whole (List.forall_mem_nil _)
  case seen =>
    intro visited call rest h _ hseen _ ih
    rw [growEach_of_seen hseen]
    exact ih
  case failed =>
    intro visited call rest h _ hnew e visited' hkept hgrow _ ih
    rw [growEach_of_error hnew hgrow]
    rw [hgrow] at ih
    by_cases hbuilt : g.isBuilt call.symbol
    · have hsite : ∀ x ∈ [call.site], g.isBuilt x.symbol := List.forall_mem_singleton.mpr hbuilt
      exact Ends.since hsite (ih hbuilt).of_error
    · rw [grow_of_missing (not_isBuilt_iff.mp hbuilt)] at hgrow
      cases hgrow
      have hsite : ¬ g.isBuilt call.site.symbol := hbuilt
      exact .stuck (List.forall_mem_nil _) hsite
  case grown =>
    intro visited call rest h _ hnew child visited' hkept hgrow _ ihchild ihrest
    rw [growEach_of_ok hnew hgrow]
    rw [hgrow] at ihchild
    by_cases hbuilt : g.isBuilt call.symbol
    · cases ihchild hbuilt with
      | whole hshown =>
        have hsite : ∀ x ∈ [call.site], g.isBuilt x.symbol := List.forall_mem_singleton.mpr hbuilt
        exact (Ends.since hsite (.since hshown ihrest)).map _
    · rw [grow_of_missing (not_isBuilt_iff.mp hbuilt)] at hgrow
      cases hgrow

theorem tree_eq (g : CallGraph) (symbol : String) (caller : Option Mention)
    (visited : List CallSite) : g.tree symbol caller visited =
      ⟨(g.grow symbol caller visited).result.map some,
        (g.grow symbol caller visited).visited, ()⟩ := by
  cases hn : g.node? symbol with
  | none =>
    rw [grow_of_missing hn, tree, Walk.start_of_error (planter_enter_of_missing hn)]
    rfl
  | some n =>
    obtain ⟨steps, hsteps⟩ :=
      (descends_growEach n.calls (site_mem_sites hn) visited (.leaf n caller)).iterate []
    rw [grow_of_node? hn, tree, Walk.start_of_iterate (planter_enter_of_node? hn) hsteps]
    rfl

/-- The machine ends as the recursion does, with the same tree or failure and the same sites shown,
and never without either. A failure names the first target without a node. -/
theorem tree_eq_grow (g : CallGraph) (symbol : String) (caller : Option Mention)
    (visited : List CallSite) :
    g.tree symbol caller visited = ⟨(g.grow symbol caller visited).result.map some,
      (g.grow symbol caller visited).visited, ()⟩ ∧
    (g.tree symbol caller visited).result ≠ .ok none ∧
    (¬ g.isBuilt symbol → (g.grow symbol caller visited).result = .error (.missingNode symbol) ∧
      (g.grow symbol caller visited).visited = visited) ∧
    (g.isBuilt symbol → g.Ends visited (g.grow symbol caller visited).result
      (g.grow symbol caller visited).visited) := by
  refine ⟨g.tree_eq symbol caller visited, ?_, ?_, ends_grow caller visited⟩
  · rw [tree_eq]
    intro hnone
    obtain ⟨t, _, ht⟩ := map_eq_ok_iff.mp hnone
    cases ht
  · intro hmissing
    rw [grow_of_missing (not_isBuilt_iff.mp hmissing)]
    exact ⟨rfl, rfl⟩

end CallGraph
end StaticCalls
