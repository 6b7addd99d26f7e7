import StaticCalls.Proofs.Walk.Descent
import Mathlib.Data.List.Dedup

/-! How much work a walk is. Each body but the first is opened by a site that has not been followed
before, so the distinct call sites bound the bodies that are opened, the height of the stack, and
with the longest body the turns of the loop (`exists_traces_bounded`). -/
namespace StaticCalls.Walk
variable {ε σ α : Type} {w : Walk ε σ α} {s s' : State σ α} {states : List (State σ α)}
  {sites : List CallSite} {lists : List (List Mention)} {out : Outcome ε σ α}

/-! ### One turn -/

/-- What a turn of the loop makes of the state, as long as the walk goes on. -/
inductive Turn (w : Walk ε σ α) : State σ α → State σ α → Prop where
  | close {gathered caller below visited store} :
      Turn w ⟨⟨gathered, []⟩, caller :: below, visited, store⟩
        ⟨⟨w.gather caller.gathered gathered, caller.pending⟩, below, visited,
          w.leave store gathered⟩
  | pass {gathered call pending below visited store} :
      Turn w ⟨⟨gathered, call :: pending⟩, below, visited, store⟩
        ⟨⟨w.note gathered call, pending⟩, below, visited, store⟩
  | absent {gathered call pending below visited store} :
      Turn w ⟨⟨gathered, call :: pending⟩, below, visited, store⟩
        ⟨⟨w.note gathered call, pending⟩, below, call.site :: visited, store⟩
  | enter {gathered call pending below visited store child}
      (hnew : visited.contains call.site = false)
      (henter : w.enter call.symbol (some call) = .ok (some child)) :
      Turn w ⟨⟨gathered, call :: pending⟩, below, visited, store⟩
        ⟨child, ⟨w.note gathered call, pending⟩ :: below, call.site :: visited, store⟩

theorem turn_of_step (hs : w.step s = .inr s') : w.Turn s s' := by
  obtain ⟨⟨gathered, pending⟩, below, visited, store⟩ := s
  cases pending with
  | nil =>
    cases below with
    | nil => cases hs
    | cons caller below =>
      cases hs
      exact .close
  | cons call pending =>
    cases htakes : w.takes store gathered visited call with
    | false =>
      rw [step_pass htakes] at hs
      cases hs
      exact .pass
    | true =>
      rw [step_take htakes] at hs
      split at hs
      next => cases hs
      next =>
        cases hs
        exact .absent
      next child henter =>
        cases hs
        exact .enter (new_of_takes htakes) henter

/-- Every body that can be entered is one of the lists. -/
def DrawsOn (w : Walk ε σ α) (lists : List (List Mention)) : Prop :=
  ∀ symbol caller frame, w.enter symbol caller = .ok (some frame) → frame.pending ∈ lists

/-- The distinct call sites of all lists. -/
def callSites (lists : List (List Mention)) : List CallSite :=
  (lists.flatten.map Mention.site).dedup

def longestOf : List (List Mention) → Nat
  | [] => 0
  | calls :: rest => max calls.length (longestOf rest)

theorem site_mem_callSites {calls : List Mention} {call : Mention} (hcalls : calls ∈ lists)
    (hcall : call ∈ calls) : call.site ∈ callSites lists := by
  simp only [callSites, List.mem_dedup, List.mem_map, List.mem_flatten]
  exact ⟨call, ⟨calls, hcalls, hcall⟩, rfl⟩

theorem length_le_longestOf {calls : List Mention} (h : calls ∈ lists) :
    calls.length ≤ longestOf lists := by
  induction lists with
  | nil => cases h
  | cons first rest ih =>
    rcases List.mem_cons.mp h with rfl | h
    · exact Nat.le_max_left _ _
    · exact Nat.le_trans (ih h) (Nat.le_max_right _ _)

/-- How many bodies are open. -/
def State.height (s : State σ α) : Nat := s.below.length + 1

namespace Turn

theorem within (h : w.Turn s s') (hlists : w.DrawsOn lists)
    (hwithin : s.Within (callSites lists)) : s'.Within (callSites lists) := by
  unfold State.Within at hwithin ⊢
  cases h with
  | close =>
    simp only [List.forall_mem_cons] at hwithin ⊢
    exact ⟨hwithin.2.1, hwithin.2.2⟩
  | pass =>
    simp only [List.forall_mem_cons] at hwithin ⊢
    exact ⟨hwithin.1.2, hwithin.2⟩
  | absent =>
    simp only [List.forall_mem_cons] at hwithin ⊢
    exact ⟨hwithin.1.2, hwithin.2⟩
  | enter _ henter =>
    simp only [List.forall_mem_cons] at hwithin ⊢
    exact ⟨fun m => site_mem_callSites (hlists _ _ _ henter), hwithin.1.2, hwithin.2⟩

/-- The stack grows by no more than the sites that are left become fewer. -/
theorem height_add_unvisited_le (h : w.Turn s s') (hwithin : s.Within sites) :
    s'.height + unvisited sites s'.visited ≤ s.height + unvisited sites s.visited := by
  cases h with
  | close => simp [State.height]
  | pass => simp [State.height]
  | @absent _ call _ _ visited =>
    have hle := unvisited_cons_le sites visited call.site
    simpa [State.height] using hle
  | @enter _ call _ _ visited _ _ hnew =>
    have hlt := unvisited_cons_lt (hwithin _ List.mem_cons_self call List.mem_cons_self) hnew
    simp only [State.height, List.length_cons]
    omega

/-- A body is opened only by a site that is left. -/
theorem ascent_add_unvisited_le (h : w.Turn s s') (hwithin : s.Within sites) :
    (if s.height < s'.height then 1 else 0) + unvisited sites s'.visited ≤
      unvisited sites s.visited := by
  cases h with
  | @close _ _ below =>
    have hlower : ¬ below.length + 1 < below.length := by omega
    simp [State.height, hlower]
  | pass => simp [State.height]
  | @absent _ call _ _ visited =>
    have hle := unvisited_cons_le sites visited call.site
    simpa [State.height] using hle
  | @enter _ call _ _ visited _ _ hnew =>
    have hlt := unvisited_cons_lt (hwithin _ List.mem_cons_self call List.mem_cons_self) hnew
    simp [State.height]
    omega

end Turn

/-- The turns that a state can still come to: those of the open bodies, and the longest body for
each site that is left. -/
def State.budget (lists : List (List Mention)) (s : State σ α) : Nat :=
  s.work + unvisited (callSites lists) s.visited * (1 + longestOf lists)

theorem State.budget_pos (lists : List (List Mention)) (s : State σ α) : 0 < s.budget lists := by
  simp only [budget, work, List.length_cons]
  omega

/-- Each turn is paid for. -/
theorem Turn.budget_lt (h : w.Turn s s') (hlists : w.DrawsOn lists)
    (hwithin : s.Within (callSites lists)) : s'.budget lists < s.budget lists := by
  unfold State.budget State.work
  cases h with
  | close => simp
  | pass => simp
  | @absent _ call _ _ visited =>
    have hle := Nat.mul_le_mul_right (1 + longestOf lists)
      (unvisited_cons_le (callSites lists) visited call.site)
    simp
    omega
  | @enter _ call _ _ visited _ _ hnew henter =>
    -- the site that is used up pays for the calls of the new body and for closing it
    have hlt := unvisited_cons_lt (hwithin _ List.mem_cons_self call List.mem_cons_self) hnew
    have hpaid := Nat.mul_le_mul_right (1 + longestOf lists) (Nat.succ_le_of_lt hlt)
    have hchild := length_le_longestOf (hlists _ _ _ henter)
    rw [Nat.succ_mul] at hpaid
    simp
    omega

/-! ### The whole loop -/

/-- The states at the beginning of each turn of the loop, up to the turn that ends it. -/
inductive Course (w : Walk ε σ α) : State σ α → List (State σ α) → Outcome ε σ α → Prop where
  | last {s : State σ α} {out : Outcome ε σ α} (hs : w.step s = .inl out) : Course w s [s] out
  | turn {s s' : State σ α} {states : List (State σ α)} {out : Outcome ε σ α}
      (hs : w.step s = .inr s') (hrest : Course w s' states out) : Course w s (s :: states) out

/-- How often the heights go up, if the first one is reached from `height`. -/
def ascents : Nat → List Nat → Nat
  | _, [] => 0
  | height, next :: rest => (if height < next then 1 else 0) + ascents next rest

/-- How many bodies are opened, the first one included: as often the stack gets higher. -/
def opened (states : List (State σ α)) : Nat := ascents 0 (states.map State.height)

/-- The loop of each walk comes to its end. -/
theorem exists_course (w : Walk ε σ α) (s : State σ α) (h : s.Within w.sites) :
    ∃ states, w.Course s states (w.run s h) := by
  fun_induction run w s h with
  | case1 s h out hs => exact ⟨[s], .last hs⟩
  | case2 s h s' hs ih =>
    obtain ⟨states, hcourse⟩ := ih
    exact ⟨s :: states, .turn hs hcourse⟩

namespace Course

theorem height_le (h : w.Course s states out) (hlists : w.DrawsOn lists)
    (hwithin : s.Within (callSites lists)) {t : State σ α} (ht : t ∈ states) :
    t.height ≤ s.height + unvisited (callSites lists) s.visited := by
  induction h with
  | last _ =>
    cases List.mem_singleton.mp ht
    exact Nat.le_add_right _ _
  | turn hs _ ih =>
    have hturn := turn_of_step hs
    rcases List.mem_cons.mp ht with rfl | ht
    · exact Nat.le_add_right _ _
    · have hrest := ih (hturn.within hlists hwithin) ht
      have hheight := hturn.height_add_unvisited_le hwithin
      omega

theorem ascents_le (h : w.Course s states out) (hlists : w.DrawsOn lists)
    (hwithin : s.Within (callSites lists)) (height : Nat) :
    ascents height (states.map State.height) ≤
      (if height < s.height then 1 else 0) + unvisited (callSites lists) s.visited := by
  induction h generalizing height with
  | last _ => simp [ascents]
  | @turn s s' _ _ hs _ ih =>
    have hturn := turn_of_step hs
    have hrest := ih (hturn.within hlists hwithin) s.height
    have hascent := hturn.ascent_add_unvisited_le hwithin
    simp only [List.map_cons, ascents]
    omega

theorem length_le (h : w.Course s states out) (hlists : w.DrawsOn lists)
    (hwithin : s.Within (callSites lists)) : states.length ≤ s.budget lists := by
  induction h with
  | @last s _ _ => exact s.budget_pos lists
  | turn hs _ ih =>
    have hturn := turn_of_step hs
    have hrest := ih (hturn.within hlists hwithin)
    have hpaid := hturn.budget_lt hlists hwithin
    rw [List.length_cons]
    omega

theorem iterate (h : w.Course s states out) : w.iterate states.length s = .inl out := by
  induction h with
  | last hs => simp [Walk.iterate, hs]
  | turn hs _ ih => rw [List.length_cons, iterate_succ_of_step hs, ih]

end Course

/-! ### From the first body on -/

/-- The turns of a walk from the body of `symbol`, and how it ends. Without such a body there are
none. -/
inductive Traces (w : Walk ε σ α) (symbol : String) (caller : Option Mention)
    (visited : List CallSite) (store : σ) : List (State σ α) → Outcome ε σ (Option α) → Prop where
  | refused {e} (henter : w.enter symbol caller = .error e) :
      Traces w symbol caller visited store [] ⟨.error e, visited, store⟩
  | absent (henter : w.enter symbol caller = .ok none) :
      Traces w symbol caller visited store [] ⟨.ok none, visited, store⟩
  | entered {frame : Frame α} {states : List (State σ α)} {out : Outcome ε σ α}
      (henter : w.enter symbol caller = .ok (some frame))
      (hcourse : w.Course ⟨frame, [], visited, store⟩ states out) :
      Traces w symbol caller visited store states ⟨out.result.map some, out.visited, out.store⟩

/-- What the distinct call sites and the longest of the lists allow. -/
structure Bounded (lists : List (List Mention)) (states : List (State σ α)) : Prop where
  opened : opened states ≤ 1 + (callSites lists).length
  height : ∀ s ∈ states, s.height ≤ 1 + (callSites lists).length
  turns : states.length ≤ (1 + (callSites lists).length) * (1 + longestOf lists)

theorem bounded_nil (lists : List (List Mention)) : Bounded lists ([] : List (State σ α)) where
  opened := Nat.zero_le _
  height := List.forall_mem_nil _
  turns := Nat.zero_le _

/-- A walk that has one body open, and that may have followed some sites before, stays in bounds. -/
theorem Course.bounded {frame : Frame α} {visited : List CallSite} {store : σ}
    (h : w.Course ⟨frame, [], visited, store⟩ states out) (hlists : w.DrawsOn lists)
    (hframe : frame.pending ∈ lists) : Bounded lists states := by
  have hleft : unvisited (callSites lists) visited ≤ (callSites lists).length :=
    List.countP_le_length
  have hlength := length_le_longestOf hframe
  have hwithin : State.Within (callSites lists) ⟨frame, [], visited, store⟩ := by
    simpa [State.Within] using fun m => site_mem_callSites hframe
  refine ⟨?_, fun t ht => ?_, ?_⟩
  · have hascents := h.ascents_le hlists hwithin 0
    simp only [State.height, Nat.zero_lt_succ, if_true] at hascents
    unfold opened
    omega
  · have hheight := h.height_le hlists hwithin ht
    simp only [State.height, List.length_nil] at hheight ⊢
    omega
  · have hturns := h.length_le hlists hwithin
    have hbodies := Nat.mul_le_mul_right (1 + longestOf lists) hleft
    simp only [State.budget, State.work, List.flatMap_cons, List.flatMap_nil, List.append_nil,
      List.length_singleton] at hturns
    rw [Nat.add_mul]
    omega

/-- Each walk comes to its end, and stays in bounds. -/
theorem exists_traces_bounded (hlists : w.DrawsOn lists) (symbol : String)
    (caller : Option Mention) (visited : List CallSite) (store : σ) :
    ∃ states, w.Traces symbol caller visited store states (w.start symbol caller visited store) ∧
      Bounded lists states := by
  cases henter : w.enter symbol caller with
  | error e =>
    rw [start_of_error henter]
    exact ⟨[], .refused henter, bounded_nil lists⟩
  | ok frame? =>
    cases frame? with
    | none =>
      rw [start_of_none henter]
      exact ⟨[], .absent henter, bounded_nil lists⟩
    | some frame =>
      have hwithin : State.Within w.sites ⟨frame, [], visited, store⟩ := by
        simpa [State.Within] using mem_sites henter
      obtain ⟨states, hcourse⟩ := w.exists_course ⟨frame, [], visited, store⟩ hwithin
      rw [start_of_iterate henter hcourse.iterate]
      exact ⟨states, .entered henter hcourse, hcourse.bounded hlists (hlists _ _ _ henter)⟩

end StaticCalls.Walk
