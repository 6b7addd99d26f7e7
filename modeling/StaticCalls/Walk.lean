import StaticCalls.Index.Mention

/-! Depth-first walks over calls. A walk enters the body of a symbol and takes its calls in order.
A call whose site is new leads into the body of its target, which is walked to its end before the
next call is taken; a site is followed at most once. Cycles need no care of their own: each
descent uses up a site (`Walk.run`). -/
namespace StaticCalls

/-- A body that is being walked: what has been gathered in it and the calls still to take. -/
structure Frame (α : Type) where
  gathered : α
  pending : List Mention

/-- The rules of a walk that gathers an `α` in each body, keeps a store `σ` and fails with `ε`. -/
structure Walk (ε σ α : Type) where
  /-- The body of a symbol, and the call that leads to it. There need not be one. -/
  enter : String → Option Mention → Except ε (Option (Frame α))
  /-- What a body has gathered once one of its calls is taken, followed or not. -/
  note : α → Mention → α
  /-- Whether a call may be followed out of a body. -/
  follows : σ → α → Mention → Bool
  /-- The store after a body has been walked to its end. -/
  leave : σ → α → σ
  /-- What a body gathers from one that it has called. -/
  gather : α → α → α
  /-- All bodies together have finitely many call sites. -/
  finite : ∃ sites : List CallSite, ∀ symbol caller frame, enter symbol caller = .ok (some frame) →
    ∀ m ∈ frame.pending, m.site ∈ sites

namespace Walk
variable {ε σ α : Type}

/-- The innermost open body, the bodies it was reached through, and the sites followed so far,
newest first. -/
structure State (σ α : Type) where
  top : Frame α
  below : List (Frame α)
  visited : List CallSite
  store : σ

/-- A walk that fails still leaves its visited sites and its store. -/
structure Outcome (ε σ α : Type) where
  result : Except ε α
  visited : List CallSite
  store : σ

/-- Takes the next call of the innermost body, or closes that body if it has none left. -/
def step (w : Walk ε σ α) (s : State σ α) : Outcome ε σ α ⊕ State σ α :=
  match s.top.pending with
  | [] =>
      let store := w.leave s.store s.top.gathered
      match s.below with
      | [] => .inl ⟨.ok s.top.gathered, s.visited, store⟩
      | caller :: below =>
          .inr ⟨⟨w.gather caller.gathered s.top.gathered, caller.pending⟩, below, s.visited, store⟩
  | call :: pending =>
      let top : Frame α := ⟨w.note s.top.gathered call, pending⟩
      if w.follows s.store top.gathered call && !s.visited.contains call.site then
        let visited := call.site :: s.visited
        match w.enter call.symbol (some call) with
        | .error e => .inl ⟨.error e, visited, s.store⟩
        | .ok none => .inr ⟨top, s.below, visited, s.store⟩
        | .ok (some child) => .inr ⟨child, top :: s.below, visited, s.store⟩
      else .inr ⟨top, s.below, s.visited, s.store⟩

/-! ### Why a walk ends -/

/-- Sites that have not been followed yet. -/
def unvisited (sites visited : List CallSite) : Nat :=
  sites.countP fun site => !visited.contains site

theorem unvisited_cons_le (sites visited : List CallSite) (site : CallSite) :
    unvisited sites (site :: visited) ≤ unvisited sites visited := by
  apply List.countP_mono_left
  intro x _ hx
  simp only [List.contains_cons, Bool.not_or, Bool.and_eq_true] at hx
  exact hx.2

theorem unvisited_cons_lt {sites visited : List CallSite} {site : CallSite} (hmem : site ∈ sites)
    (hnew : visited.contains site = false) :
    unvisited sites (site :: visited) < unvisited sites visited := by
  induction sites with
  | nil => cases hmem
  | cons head rest ih =>
    have hle := unvisited_cons_le rest visited site
    rcases List.mem_cons.mp hmem with rfl | hin
    · have hseen : (site :: visited).contains site = true := by simp
      simp only [unvisited, List.countP_cons, hnew, hseen, Bool.not_false, Bool.not_true,
        if_true, Bool.false_eq_true, if_false] at hle ⊢
      omega
    · have hlt := ih hin
      simp only [unvisited, List.countP_cons, List.contains_cons, Bool.not_or] at hlt ⊢
      cases visited.contains head <;> cases (head == site) <;> simp at hlt ⊢ <;> omega

namespace State

/-- Calls still to take and bodies still to close. -/
def work (s : State σ α) : Nat :=
  ((s.top :: s.below).flatMap Frame.pending).length + (s.top :: s.below).length

/-- All calls still to take are at sites of the list. -/
def Within (sites : List CallSite) (s : State σ α) : Prop :=
  ∀ f ∈ s.top :: s.below, ∀ m ∈ f.pending, m.site ∈ sites

end State

noncomputable def sites (w : Walk ε σ α) : List CallSite := w.finite.choose

theorem mem_sites {w : Walk ε σ α} {symbol : String} {caller : Option Mention} {frame : Frame α}
    (h : w.enter symbol caller = .ok (some frame)) : ∀ m ∈ frame.pending, m.site ∈ w.sites :=
  w.finite.choose_spec symbol caller frame h

theorem within_step {w : Walk ε σ α} {s s' : State σ α} (h : s.Within w.sites)
    (hs : w.step s = .inr s') : s'.Within w.sites := by
  unfold step at hs
  split at hs
  next hp =>
    split at hs
    next => cases hs
    next caller below hb =>
      cases hs
      intro f hf
      rcases List.mem_cons.mp hf with rfl | hf
      · exact h caller (by simp [hb])
      · exact h f (by simp [hb, hf])
  next call pending hp =>
    have htop : ∀ m ∈ pending, m.site ∈ w.sites := fun m hm =>
      h s.top List.mem_cons_self m (by simp [hp, hm])
    have hbelow : ∀ f ∈ s.below, ∀ m ∈ f.pending, m.site ∈ w.sites := fun f hf =>
      h f (List.mem_cons_of_mem _ hf)
    dsimp only at hs
    split at hs
    next =>
      split at hs
      next => cases hs
      next =>
        cases hs
        intro f hf
        rcases List.mem_cons.mp hf with rfl | hf
        · exact htop
        · exact hbelow f hf
      next child hc =>
        cases hs
        intro f hf
        rcases List.mem_cons.mp hf with rfl | hf
        · exact mem_sites hc
        · rcases List.mem_cons.mp hf with rfl | hf
          · exact htop
          · exact hbelow f hf
    next =>
      cases hs
      intro f hf
      rcases List.mem_cons.mp hf with rfl | hf
      · exact htop
      · exact hbelow f hf

/-- A step follows a new site, or leaves less to take and to close. -/
theorem step_decreases {w : Walk ε σ α} {s s' : State σ α} (h : s.Within w.sites)
    (hs : w.step s = .inr s') :
    Prod.Lex (· < ·) (· < ·) (unvisited w.sites s'.visited, s'.work)
      (unvisited w.sites s.visited, s.work) := by
  unfold step at hs
  split at hs
  next hp =>
    split at hs
    next => cases hs
    next caller below hb =>
      cases hs
      refine .right _ ?_
      simp only [State.work, hb, List.flatMap_cons, List.length_append, List.length_cons, hp,
        List.length_nil]
      omega
  next call pending hp =>
    have hmem : call.site ∈ w.sites := h s.top List.mem_cons_self call (by simp [hp])
    dsimp only at hs
    split at hs
    next hnew =>
      simp only [Bool.and_eq_true, Bool.not_eq_true'] at hnew
      split at hs
      next => cases hs
      all_goals
        cases hs
        exact .left _ _ (unvisited_cons_lt hmem hnew.2)
    next =>
      cases hs
      refine .right _ ?_
      simp only [State.work, List.flatMap_cons, List.length_append, List.length_cons, hp]
      omega

/-- Steps to the end. -/
def run (w : Walk ε σ α) (s : State σ α) (h : s.Within w.sites) : Outcome ε σ α :=
  match hs : w.step s with
  | .inl outcome => outcome
  | .inr s' => run w s' (within_step h hs)
termination_by (unvisited w.sites s.visited, s.work)
decreasing_by exact step_decreases h hs

/-- The walk from the body of `symbol`; the result is `none` when there is no such body. -/
def start (w : Walk ε σ α) (symbol : String) (caller : Option Mention) (visited : List CallSite)
    (store : σ) : Outcome ε σ (Option α) :=
  match h : w.enter symbol caller with
  | .error e => ⟨.error e, visited, store⟩
  | .ok none => ⟨.ok none, visited, store⟩
  | .ok (some frame) =>
      let outcome := w.run ⟨frame, [], visited, store⟩ fun f hf m hm => by
        cases List.mem_singleton.mp hf
        exact mem_sites h m hm
      ⟨outcome.result.map some, outcome.visited, outcome.store⟩

end Walk
end StaticCalls
