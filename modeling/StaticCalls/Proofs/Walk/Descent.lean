import StaticCalls.Walk

/-! A walk as a recursion over the calls of each body. What becomes of a frame does not depend on
the frames below it, so the stack machine ends the way the recursion does (`start_of_enter`). -/
namespace StaticCalls.Walk
variable {ε σ α : Type} {w : Walk ε σ α}

/-- Whether a call leads out of its body: it may be followed, and its site is new. -/
def takes (w : Walk ε σ α) (store : σ) (gathered : α) (visited : List CallSite) (call : Mention) :
    Bool :=
  w.follows store (w.note gathered call) call && !visited.contains call.site

/-- How a body that has gathered something, and has calls still to take, is walked to its end. -/
inductive Descends (w : Walk ε σ α) :
    α → List Mention → List CallSite → σ → Outcome ε σ α → Prop where
  | close {gathered visited store} :
      Descends w gathered [] visited store ⟨.ok gathered, visited, w.leave store gathered⟩
  | pass {gathered call pending visited store out}
      (htakes : w.takes store gathered visited call = false)
      (hrest : Descends w (w.note gathered call) pending visited store out) :
      Descends w gathered (call :: pending) visited store out
  | absent {gathered call pending visited store out}
      (htakes : w.takes store gathered visited call = true)
      (henter : w.enter call.symbol (some call) = .ok none)
      (hrest : Descends w (w.note gathered call) pending (call.site :: visited) store out) :
      Descends w gathered (call :: pending) visited store out
  | refuse {gathered call pending visited store e}
      (htakes : w.takes store gathered visited call = true)
      (henter : w.enter call.symbol (some call) = .error e) :
      Descends w gathered (call :: pending) visited store ⟨.error e, call.site :: visited, store⟩
  | enter {gathered call pending visited store child result visited' store' out}
      (htakes : w.takes store gathered visited call = true)
      (henter : w.enter call.symbol (some call) = .ok (some child))
      (hchild : Descends w child.gathered child.pending (call.site :: visited) store
        ⟨.ok result, visited', store'⟩)
      (hrest : Descends w (w.gather (w.note gathered call) result) pending visited' store' out) :
      Descends w gathered (call :: pending) visited store out
  | fail {gathered call pending visited store child e visited' store'}
      (htakes : w.takes store gathered visited call = true)
      (henter : w.enter call.symbol (some call) = .ok (some child))
      (hchild : Descends w child.gathered child.pending (call.site :: visited) store
        ⟨.error e, visited', store'⟩) :
      Descends w gathered (call :: pending) visited store ⟨.error e, visited', store'⟩

theorem new_of_takes {store : σ} {gathered : α} {visited : List CallSite} {call : Mention}
    (h : w.takes store gathered visited call = true) : visited.contains call.site = false := by
  simpa only [Bool.not_eq_true'] using (Bool.and_eq_true_iff.mp h).2

/-- No site is ever forgotten. -/
theorem Descends.visited_subset {gathered : α} {pending : List Mention} {visited : List CallSite}
    {store : σ} {out : Outcome ε σ α} (h : w.Descends gathered pending visited store out) :
    visited ⊆ out.visited := by
  induction h with
  | close => exact List.Subset.refl _
  | pass _ _ ih => exact ih
  | absent _ _ _ ih => exact List.Subset.trans (List.subset_cons_self _ _) ih
  | refuse _ _ => exact List.subset_cons_self _ _
  | enter _ _ _ _ ihchild ihrest =>
    exact List.Subset.trans (List.subset_cons_self _ _) (List.Subset.trans ihchild ihrest)
  | fail _ _ _ ih => exact List.Subset.trans (List.subset_cons_self _ _) ih

/-- What leaving a body keeps holds of the store at the end of a walk, whether it succeeds or not. -/
theorem Descends.store_induction {P : σ → Prop}
    (hleave : ∀ store gathered, P store → P (w.leave store gathered)) {gathered : α}
    {pending : List Mention} {visited : List CallSite} {store : σ} {out : Outcome ε σ α}
    (h : w.Descends gathered pending visited store out) (hstore : P store) : P out.store := by
  induction h with
  | close => exact hleave _ _ hstore
  | pass _ _ ih => exact ih hstore
  | absent _ _ _ ih => exact ih hstore
  | refuse _ _ => exact hstore
  | enter _ _ _ _ ihchild ihrest => exact ihrest (ihchild hstore)
  | fail _ _ _ ih => exact ih hstore

theorem unvisited_le_of_subset (sites : List CallSite) {visited visited' : List CallSite}
    (h : visited ⊆ visited') : unvisited sites visited' ≤ unvisited sites visited := by
  apply List.countP_mono_left
  intro site _ hnew
  simp only [Bool.not_eq_true', List.contains_eq_mem, decide_eq_false_iff_not] at hnew ⊢
  exact fun hmem => hnew (h hmem)

/-- Each body can be walked to its end: a descent uses up a site. -/
theorem exists_descends (w : Walk ε σ α) (gathered : α) (pending : List Mention)
    (visited : List CallSite) (store : σ) (h : ∀ m ∈ pending, m.site ∈ w.sites) :
    ∃ out, w.Descends gathered pending visited store out := by
  match pending with
  | [] => exact ⟨_, .close⟩
  | call :: rest =>
    rw [List.forall_mem_cons] at h
    cases htakes : w.takes store gathered visited call with
    | false =>
      obtain ⟨out, hrest⟩ := exists_descends w (w.note gathered call) rest visited store h.2
      exact ⟨out, .pass htakes hrest⟩
    | true =>
      have hlt : unvisited w.sites (call.site :: visited) < unvisited w.sites visited :=
        unvisited_cons_lt h.1 (new_of_takes htakes)
      match henter : w.enter call.symbol (some call) with
      | .error e => exact ⟨_, .refuse htakes henter⟩
      | .ok none =>
        obtain ⟨out, hrest⟩ :=
          exists_descends w (w.note gathered call) rest (call.site :: visited) store h.2
        exact ⟨out, .absent htakes henter hrest⟩
      | .ok (some child) =>
        obtain ⟨⟨result, visited', store'⟩, hchild⟩ :=
          exists_descends w child.gathered child.pending (call.site :: visited) store
            (mem_sites henter)
        cases result with
        | error e => exact ⟨_, .fail htakes henter hchild⟩
        | ok a =>
          have hle := unvisited_le_of_subset w.sites hchild.visited_subset
          obtain ⟨out, hrest⟩ :=
            exists_descends w (w.gather (w.note gathered call) a) rest visited' store' h.2
          exact ⟨out, .enter htakes henter hchild hrest⟩
termination_by (unvisited w.sites visited, pending.length)
decreasing_by
  · exact .right _ (by simp)
  · exact .left _ _ hlt
  · exact .left _ _ hlt
  · exact .left _ _ (Nat.lt_of_le_of_lt hle hlt)

/-! ### The machine -/

/-- The machine after `n` steps, or the outcome if it has come to its end before. -/
def iterate (w : Walk ε σ α) : Nat → State σ α → Outcome ε σ α ⊕ State σ α
  | 0, s => .inr s
  | n + 1, s =>
      match w.step s with
      | .inl outcome => .inl outcome
      | .inr s' => w.iterate n s'

theorem iterate_succ_of_step {s s' : State σ α} (hs : w.step s = .inr s') (n : Nat) :
    w.iterate (n + 1) s = w.iterate n s' := by
  simp only [iterate, hs]

theorem iterate_add {n m : Nat} {s s' : State σ α} (h : w.iterate n s = .inr s') :
    w.iterate (n + m) s = w.iterate m s' := by
  induction n generalizing s with
  | zero =>
    cases h
    rw [Nat.zero_add]
  | succ n ih =>
    cases hs : w.step s with
    | inl outcome => simp [iterate, hs] at h
    | inr next =>
      rw [iterate_succ_of_step hs] at h
      rw [Nat.add_right_comm, iterate_succ_of_step hs, ih h]

theorem run_of_iterate {n : Nat} {s : State σ α} {out : Outcome ε σ α}
    (h : w.iterate n s = .inl out) (hwithin : s.Within w.sites) : w.run s hwithin = out := by
  induction n generalizing s with
  | zero => cases h
  | succ n ih =>
    unfold run
    split
    next outcome hs =>
      simp only [iterate, hs, Sum.inl.injEq] at h
      exact h
    next s' hs =>
      rw [iterate_succ_of_step hs] at h
      exact ih h (within_step hwithin hs)

/-- How the machine goes on when a body has come to its end: in the body below, if there is one. -/
def resume (w : Walk ε σ α) (out : Outcome ε σ α) : List (Frame α) → Outcome ε σ α ⊕ State σ α
  | [] => .inl out
  | caller :: below =>
      match out.result with
      | .ok result =>
          .inr ⟨⟨w.gather caller.gathered result, caller.pending⟩, below, out.visited, out.store⟩
      | .error e => .inl ⟨.error e, out.visited, out.store⟩

theorem resume_error (e : ε) (visited : List CallSite) (store : σ) (below : List (Frame α)) :
    w.resume ⟨.error e, visited, store⟩ below = .inl ⟨.error e, visited, store⟩ := by
  cases below <;> rfl

section Step
variable {gathered : α} {call : Mention} {pending : List Mention} {below : List (Frame α)}
  {visited : List CallSite} {store : σ}

theorem step_close : w.step ⟨⟨gathered, []⟩, below, visited, store⟩ =
    w.resume ⟨.ok gathered, visited, w.leave store gathered⟩ below := by
  cases below <;> rfl

theorem step_pass (h : w.takes store gathered visited call = false) :
    w.step ⟨⟨gathered, call :: pending⟩, below, visited, store⟩ =
      .inr ⟨⟨w.note gathered call, pending⟩, below, visited, store⟩ := by
  show (if w.takes store gathered visited call then _ else _) = _
  rw [h]
  rfl

theorem step_take (h : w.takes store gathered visited call = true) :
    w.step ⟨⟨gathered, call :: pending⟩, below, visited, store⟩ =
      match w.enter call.symbol (some call) with
      | .error e => .inl ⟨.error e, call.site :: visited, store⟩
      | .ok none => .inr ⟨⟨w.note gathered call, pending⟩, below, call.site :: visited, store⟩
      | .ok (some child) =>
          .inr ⟨child, ⟨w.note gathered call, pending⟩ :: below, call.site :: visited, store⟩ := by
  show (if w.takes store gathered visited call then _ else _) = _
  rw [h]
  rfl

theorem step_enter {child : Frame α} (h : w.takes store gathered visited call = true)
    (henter : w.enter call.symbol (some call) = .ok (some child)) :
    w.step ⟨⟨gathered, call :: pending⟩, below, visited, store⟩ =
      .inr ⟨child, ⟨w.note gathered call, pending⟩ :: below, call.site :: visited, store⟩ := by
  rw [step_take h, henter]

end Step

/-- The machine walks a body to its end whatever lies below it. -/
theorem Descends.iterate {gathered : α} {pending : List Mention} {visited : List CallSite}
    {store : σ} {out : Outcome ε σ α} (h : w.Descends gathered pending visited store out)
    (below : List (Frame α)) :
    ∃ n, w.iterate n ⟨⟨gathered, pending⟩, below, visited, store⟩ = w.resume out below := by
  induction h generalizing below with
  | close =>
    refine ⟨1, ?_⟩
    rw [Walk.iterate, step_close]
    cases below <;> rfl
  | pass htakes _ ih =>
    obtain ⟨n, hn⟩ := ih below
    refine ⟨n + 1, ?_⟩
    rw [iterate_succ_of_step (step_pass htakes), hn]
  | absent htakes henter _ ih =>
    obtain ⟨n, hn⟩ := ih below
    refine ⟨n + 1, ?_⟩
    rw [Walk.iterate, step_take htakes, henter]
    exact hn
  | refuse htakes henter =>
    refine ⟨1, ?_⟩
    rw [resume_error, Walk.iterate, step_take htakes, henter]
  | @enter gathered call pending _ _ _ _ _ _ _ htakes henter _ _ ihchild ihrest =>
    obtain ⟨n, hn⟩ := ihchild (⟨w.note gathered call, pending⟩ :: below)
    obtain ⟨m, hm⟩ := ihrest below
    refine ⟨n + m + 1, ?_⟩
    rw [iterate_succ_of_step (step_enter htakes henter), iterate_add hn, hm]
  | @fail gathered call pending _ _ _ _ _ _ htakes henter _ ih =>
    obtain ⟨n, hn⟩ := ih (⟨w.note gathered call, pending⟩ :: below)
    refine ⟨n + 1, ?_⟩
    rw [iterate_succ_of_step (step_enter htakes henter), hn, resume_error, resume_error]

theorem start_of_iterate {symbol : String} {caller : Option Mention} {frame : Frame α} {n : Nat}
    {visited : List CallSite} {store : σ} {out : Outcome ε σ α}
    (henter : w.enter symbol caller = .ok (some frame))
    (h : w.iterate n ⟨frame, [], visited, store⟩ = .inl out) :
    w.start symbol caller visited store = ⟨out.result.map some, out.visited, out.store⟩ := by
  unfold start
  split
  next e h => rw [henter] at h; cases h
  next h => rw [henter] at h; cases h
  next frame h' =>
    rw [henter] at h'
    cases h'
    exact congrArg (fun o : Outcome ε σ α =>
      (⟨o.result.map some, o.visited, o.store⟩ : Outcome ε σ (Option α))) (run_of_iterate h _)

/-- A walk ends the way the recursion does. -/
theorem start_of_enter {symbol : String} {caller : Option Mention} {frame : Frame α}
    (henter : w.enter symbol caller = .ok (some frame)) (visited : List CallSite) (store : σ) :
    ∃ out, w.Descends frame.gathered frame.pending visited store out ∧
      w.start symbol caller visited store = ⟨out.result.map some, out.visited, out.store⟩ := by
  obtain ⟨gathered, pending⟩ := frame
  obtain ⟨out, hout⟩ := exists_descends w gathered pending visited store (mem_sites henter)
  obtain ⟨n, hn⟩ := hout.iterate []
  exact ⟨out, hout, start_of_iterate henter hn⟩

theorem start_of_error {symbol : String} {caller : Option Mention} {e : ε}
    (henter : w.enter symbol caller = .error e) (visited : List CallSite) (store : σ) :
    w.start symbol caller visited store = ⟨.error e, visited, store⟩ := by
  unfold start
  split
  next h => rw [henter] at h; cases h; rfl
  next h => rw [henter] at h; cases h
  next h => rw [henter] at h; cases h

theorem start_of_none {symbol : String} {caller : Option Mention}
    (henter : w.enter symbol caller = .ok none) (visited : List CallSite) (store : σ) :
    w.start symbol caller visited store = ⟨.ok none, visited, store⟩ := by
  unfold start
  split
  next h => rw [henter] at h; cases h
  next => rfl
  next h => rw [henter] at h; cases h

end StaticCalls.Walk
