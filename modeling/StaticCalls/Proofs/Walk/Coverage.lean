import StaticCalls.Proofs.Walk.Descent
import Mathlib.Logic.Relation

/-! Which sites a walk visits. A walk that follows every call has visited, once it succeeds, the
sites it started with and all that can be reached from its calls, each of them once. -/
namespace StaticCalls.Walk
open Relation
variable {ε σ α : Type} {w : Walk ε σ α} {callsOf : String → List Mention}

/-- The target of the first call has the second one in its body. -/
def Leads (callsOf : String → List Mention) (x y : CallSite) : Prop :=
  ∃ m ∈ callsOf x.symbol, m.site = y

/-- The site of one of the calls, or one that it leads to over any number of bodies. -/
def Below (callsOf : String → List Mention) (calls : List Mention) (x : CallSite) : Prop :=
  ∃ m ∈ calls, ReflTransGen (Leads callsOf) m.site x

theorem below_cons {call : Mention} {calls : List Mention} {x : CallSite} :
    Below callsOf (call :: calls) x ↔
      ReflTransGen (Leads callsOf) call.site x ∨ Below callsOf calls x := by
  simp only [Below, List.mem_cons, or_and_right, exists_or, exists_eq_left]

/-- What the first call of a body leads to: itself and what lies below the body of its target. -/
theorem reaches_site_iff {call : Mention} {x : CallSite} :
    ReflTransGen (Leads callsOf) call.site x ↔
      x = call.site ∨ Below callsOf (callsOf call.symbol) x := by
  constructor
  · intro h
    rcases h.cases_head with rfl | ⟨_, ⟨m, hm, rfl⟩, hrest⟩
    · exact .inl rfl
    · exact .inr ⟨m, hm, hrest⟩
  · rintro (rfl | ⟨m, hm, hrest⟩)
    · exact .refl
    · exact .head ⟨m, hm, rfl⟩ hrest

/-- Below the calls, what has been visited has been left with nothing to visit. -/
def Settled (callsOf : String → List Mention) (calls : List Mention) (visited : List CallSite) :
    Prop :=
  ∀ x ∈ visited, Below callsOf calls x → ∀ m ∈ callsOf x.symbol, m.site ∈ visited

theorem settled_nil (calls : List Mention) : Settled callsOf calls [] := by
  intro x hx
  cases hx

theorem Settled.mem_of_reaches {calls : List Mention} {visited : List CallSite}
    (h : Settled callsOf calls visited) {x y : CallSite} (hx : x ∈ visited)
    (hbelow : Below callsOf calls x) (hreach : ReflTransGen (Leads callsOf) x y) :
    y ∈ visited := by
  induction hreach with
  | refl => exact hx
  | tail hreach hlead ih =>
    obtain ⟨first, hfirst, hto⟩ := hbelow
    obtain ⟨m, hm, rfl⟩ := hlead
    exact h _ ih ⟨first, hfirst, hto.trans hreach⟩ m hm

section Settled
variable {call : Mention} {rest : List Mention} {visited visited' : List CallSite}

theorem Settled.tail (h : Settled callsOf (call :: rest) visited) :
    Settled callsOf rest visited := by
  intro x hx hbelow
  exact h x hx (below_cons.mpr (.inr hbelow))

theorem Settled.absent (h : Settled callsOf (call :: rest) visited)
    (hnone : callsOf call.symbol = []) : Settled callsOf rest (call.site :: visited) := by
  intro x hx hbelow m hm
  rcases List.mem_cons.mp hx with rfl | hx
  · have hm' : m ∈ callsOf call.symbol := hm
    rw [hnone] at hm'
    cases hm'
  · exact List.mem_cons_of_mem _ (h.tail x hx hbelow m hm)

/-- In a body that does not lead back to the call, the call itself is of no concern. -/
theorem Settled.enter (h : Settled callsOf (call :: rest) visited)
    (hself : ¬ Below callsOf (callsOf call.symbol) call.site) :
    Settled callsOf (callsOf call.symbol) (call.site :: visited) := by
  intro x hx hbelow m hm
  rcases List.mem_cons.mp hx with rfl | hx
  · exact absurd hbelow hself
  · have hbelow' : Below callsOf (call :: rest) x :=
      below_cons.mpr (.inl (reaches_site_iff.mpr (.inr hbelow)))
    exact List.mem_cons_of_mem _ (h x hx hbelow' m hm)

theorem Settled.leave (h : Settled callsOf (call :: rest) visited)
    (hvisited : ∀ x, x ∈ visited' ↔
      x ∈ call.site :: visited ∨ Below callsOf (callsOf call.symbol) x) :
    Settled callsOf rest visited' := by
  intro x hx hbelow m hm
  rw [hvisited]
  rcases (hvisited x).mp hx with hx | ⟨first, hfirst, hreach⟩
  · rcases List.mem_cons.mp hx with rfl | hx
    · exact .inr ⟨m, hm, .refl⟩
    · exact .inl (List.mem_cons_of_mem _ (h.tail x hx hbelow m hm))
  · exact .inr ⟨first, hfirst, hreach.tail ⟨m, hm, rfl⟩⟩

end Settled

/-- The walk may follow every call, and it enters the bodies that `callsOf` tells. -/
structure Follows (w : Walk ε σ α) (callsOf : String → List Mention) : Prop where
  all : ∀ store gathered call, w.follows store gathered call = true
  entered : ∀ {symbol caller frame}, w.enter symbol caller = .ok (some frame) →
    frame.pending = callsOf symbol
  passed : ∀ {symbol caller}, w.enter symbol caller = .ok none → callsOf symbol = []

theorem Follows.takes_iff (hw : w.Follows callsOf) {store : σ} {gathered : α}
    {visited : List CallSite} {call : Mention} :
    w.takes store gathered visited call = true ↔ call.site ∉ visited := by
  simp [takes, hw.all]

theorem Follows.mem_of_takes_eq_false (hw : w.Follows callsOf) {store : σ} {gathered : α}
    {visited : List CallSite} {call : Mention}
    (h : w.takes store gathered visited call = false) : call.site ∈ visited := by
  apply Decidable.byContradiction
  intro hnew
  rw [hw.takes_iff.mpr hnew] at h
  cases h

namespace Descends
variable {gathered : α} {pending : List Mention} {visited : List CallSite} {store : σ}
  {out : Outcome ε σ α}

/-- No site is visited twice. -/
theorem nodup (h : w.Descends gathered pending visited store out) (hnodup : visited.Nodup) :
    out.visited.Nodup := by
  have hcons {call : Mention} {store : σ} {gathered : α} {visited : List CallSite}
      (htakes : w.takes store gathered visited call = true) (hnodup : visited.Nodup) :
      (call.site :: visited).Nodup := by
    have hnew := new_of_takes htakes
    rw [List.contains_eq_mem, decide_eq_false_iff_not] at hnew
    exact List.nodup_cons.mpr ⟨hnew, hnodup⟩
  induction h with
  | close => exact hnodup
  | pass _ _ ih => exact ih hnodup
  | absent htakes _ _ ih => exact ih (hcons htakes hnodup)
  | refuse htakes _ => exact hcons htakes hnodup
  | enter htakes _ _ _ ihchild ihrest => exact ihrest (ihchild (hcons htakes hnodup))
  | fail htakes _ _ ih => exact ih (hcons htakes hnodup)

/-- Only what lies below the calls of a body is visited from there. -/
theorem below_of_visited (h : w.Descends gathered pending visited store out)
    (hw : w.Follows callsOf) {x : CallSite} (hx : x ∈ out.visited) :
    x ∈ visited ∨ Below callsOf pending x := by
  induction h with
  | close => exact .inl hx
  | pass _ _ ih => exact (ih hx).imp_right fun hb => below_cons.mpr (.inr hb)
  | absent _ _ _ ih =>
    rw [below_cons]
    rcases ih hx with hv | hb
    · rcases List.mem_cons.mp hv with rfl | hv
      · exact .inr (.inl .refl)
      · exact .inl hv
    · exact .inr (.inr hb)
  | refuse _ _ =>
    rw [below_cons]
    rcases List.mem_cons.mp hx with rfl | hv
    · exact .inr (.inl .refl)
    · exact .inl hv
  | enter _ henter _ _ ihchild ihrest =>
    rw [below_cons, reaches_site_iff]
    rcases ihrest hx with hv | hb
    · rcases ihchild hv with hv | hb
      · rcases List.mem_cons.mp hv with rfl | hv
        · exact .inr (.inl (.inl rfl))
        · exact .inl hv
      · rw [hw.entered henter] at hb
        exact .inr (.inl (.inr hb))
    · exact .inr (.inr hb)
  | fail _ henter _ ih =>
    rw [below_cons, reaches_site_iff]
    rcases ih hx with hv | hb
    · rcases List.mem_cons.mp hv with rfl | hv
      · exact .inr (.inl (.inl rfl))
      · exact .inl hv
    · rw [hw.entered henter] at hb
      exact .inr (.inl (.inr hb))

/-- A walk that succeeds has left no call of a body out. -/
theorem pending_visited (h : w.Descends gathered pending visited store out)
    (hw : w.Follows callsOf) {result : α} (hok : out.result = .ok result) :
    ∀ m ∈ pending, m.site ∈ out.visited := by
  induction h with
  | close => simp
  | pass htakes hrest ih =>
    have hmem := hw.mem_of_takes_eq_false htakes
    exact List.forall_mem_cons.mpr ⟨hrest.visited_subset hmem, ih hok⟩
  | absent _ _ hrest ih =>
    exact List.forall_mem_cons.mpr ⟨hrest.visited_subset List.mem_cons_self, ih hok⟩
  | refuse _ _ => cases hok
  | enter _ _ hchild hrest _ ihrest =>
    have hmem := hchild.visited_subset List.mem_cons_self
    exact List.forall_mem_cons.mpr ⟨hrest.visited_subset hmem, ihrest hok⟩
  | fail _ _ _ _ => cases hok

/-- A walk that succeeds has visited all calls in the bodies that it has been led to. -/
theorem closed (h : w.Descends gathered pending visited store out) (hw : w.Follows callsOf)
    {result : α} (hok : out.result = .ok result) {x : CallSite} (hx : x ∈ out.visited) :
    x ∈ visited ∨ ∀ m ∈ callsOf x.symbol, m.site ∈ out.visited := by
  induction h generalizing result with
  | close => exact .inl hx
  | pass _ _ ih => exact ih hok hx
  | absent _ henter _ ih =>
    rcases ih hok hx with hv | hclosed
    · rcases List.mem_cons.mp hv with rfl | hv
      · refine .inr ?_
        show ∀ m ∈ callsOf (Mention.symbol _), _
        rw [hw.passed henter]
        simp
      · exact .inl hv
    · exact .inr hclosed
  | refuse _ _ => cases hok
  | enter _ henter hchild hrest ihchild ihrest =>
    have hsub := hrest.visited_subset
    rcases ihrest hok hx with hv | hclosed
    · rcases ihchild rfl hv with hv | hclosed
      · rcases List.mem_cons.mp hv with rfl | hv
        · have hbody := hchild.pending_visited hw rfl
          rw [hw.entered henter] at hbody
          exact .inr fun m hm => hsub (hbody m hm)
        · exact .inl hv
      · exact .inr fun m hm => hsub (hclosed m hm)
    · exact .inr hclosed
  | fail _ _ _ _ => cases hok

/-- A walk that succeeds visits what lies below its calls. -/
theorem mem_visited_iff (h : w.Descends gathered pending visited store out)
    (hw : w.Follows callsOf) (hsettled : Settled callsOf pending visited) {result : α}
    (hok : out.result = .ok result) {x : CallSite} :
    x ∈ out.visited ↔ x ∈ visited ∨ Below callsOf pending x := by
  constructor
  · intro hx
    exact h.below_of_visited hw hx
  · rintro (hx | ⟨m, hm, hreach⟩)
    · exact h.visited_subset hx
    · induction hreach with
      | refl => exact h.pending_visited hw hok m hm
      | tail hreach hlead ih =>
        obtain ⟨m', hm', rfl⟩ := hlead
        rcases h.closed hw hok ih with hv | hclosed
        · exact h.visited_subset (hsettled _ hv ⟨m, hm, hreach⟩ m' hm')
        · exact hclosed m' hm'

end Descends
end StaticCalls.Walk
