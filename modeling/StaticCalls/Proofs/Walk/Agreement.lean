import StaticCalls.Proofs.Walk.Descent
import Mathlib.Data.List.Forall2

/-! Walks that come to the same end. One walk simulates another if related calls have one site and
lead into bodies with related calls (`Simulates.start_eq`). What a walk does elsewhere has no effect
on it, so that a walk inside a part of a graph is the same in the part and in the whole
(`Agrees.start_eq`). -/
namespace StaticCalls.Walk
variable {ε σ α : Type} {w w' : Walk ε σ α} {R : Mention → Mention → Prop}

/-- Both walks are refused, find no body, or come to bodies whose calls are related one by one. -/
inductive Entered (R : Mention → Mention → Prop) :
    Except ε (Option (Frame α)) → Except ε (Option (Frame α)) → Prop where
  | refused {e} : Entered R (.error e) (.error e)
  | absent : Entered R (.ok none) (.ok none)
  | body {gathered pending pending'} (h : List.Forall₂ R pending pending') :
      Entered R (.ok (some ⟨gathered, pending⟩)) (.ok (some ⟨gathered, pending'⟩))

/-- The walks treat related calls alike. -/
structure Simulates (w w' : Walk ε σ α) (R : Mention → Mention → Prop) : Prop where
  site : ∀ {call call'}, R call call' → call'.site = call.site
  enter : ∀ {call call'}, R call call' →
    Entered R (w.enter call.symbol (some call)) (w'.enter call'.symbol (some call'))
  note : ∀ {call call'}, R call call' → ∀ gathered, w'.note gathered call' = w.note gathered call
  follows : ∀ {call call'}, R call call' → ∀ store gathered,
    w'.follows store gathered call' = w.follows store gathered call
  leave : w'.leave = w.leave
  gather : w'.gather = w.gather

namespace Simulates

theorem takes_eq (h : w.Simulates w' R) {call call' : Mention} (hcall : R call call')
    (store : σ) (gathered : α) (visited : List CallSite) :
    w'.takes store gathered visited call' = w.takes store gathered visited call := by
  rw [takes, takes, h.note hcall, h.follows hcall, h.site hcall]

theorem descends (h : w.Simulates w' R) {gathered : α} {pending pending' : List Mention}
    {visited : List CallSite} {store : σ} {out : Outcome ε σ α}
    (hw : w.Descends gathered pending visited store out)
    (hpending : List.Forall₂ R pending pending') :
    w'.Descends gathered pending' visited store out := by
  induction hw generalizing pending' with
  | close =>
    cases hpending
    rw [← h.leave]
    exact .close
  | pass htakes _ ih =>
    cases hpending with
    | cons hcall hrest =>
      have hafter := ih hrest
      rw [← h.note hcall] at hafter
      exact .pass (by rw [h.takes_eq hcall, htakes]) hafter
  | absent htakes henter _ ih =>
    cases hpending with
    | cons hcall hrest =>
      have hentered := h.enter hcall
      have hafter := ih hrest
      rw [henter] at hentered
      rw [← h.site hcall, ← h.note hcall] at hafter
      generalize henter' : w'.enter _ _ = entered at hentered
      cases hentered
      exact .absent (by rw [h.takes_eq hcall, htakes]) henter' hafter
  | refuse htakes henter =>
    cases hpending with
    | cons hcall hrest =>
      have hentered := h.enter hcall
      rw [henter] at hentered
      rw [← h.site hcall]
      generalize henter' : w'.enter _ _ = entered at hentered
      cases hentered
      exact .refuse (by rw [h.takes_eq hcall, htakes]) henter'
  | enter htakes henter _ _ ihchild ihrest =>
    cases hpending with
    | cons hcall hrest =>
      have hentered := h.enter hcall
      rw [henter] at hentered
      rw [← h.site hcall] at ihchild
      rw [← h.gather, ← h.note hcall] at ihrest
      generalize henter' : w'.enter _ _ = entered at hentered
      cases hentered with
      | body hchild =>
        exact .enter (by rw [h.takes_eq hcall, htakes]) henter' (ihchild hchild) (ihrest hrest)
  | fail htakes henter _ ih =>
    cases hpending with
    | cons hcall hrest =>
      have hentered := h.enter hcall
      rw [henter] at hentered
      rw [← h.site hcall] at ih
      generalize henter' : w'.enter _ _ = entered at hentered
      cases hentered with
      | body hchild => exact .fail (by rw [h.takes_eq hcall, htakes]) henter' (ih hchild)

theorem start_eq (h : w.Simulates w' R) {symbol symbol' : String} {caller caller' : Option Mention}
    (hentered : Entered R (w.enter symbol caller) (w'.enter symbol' caller'))
    (visited : List CallSite) (store : σ) :
    w'.start symbol' caller' visited store = w.start symbol caller visited store := by
  generalize henter : w.enter symbol caller = entered at hentered
  generalize henter' : w'.enter symbol' caller' = entered' at hentered
  cases hentered with
  | refused => rw [start_of_error henter, start_of_error henter']
  | absent => rw [start_of_none henter, start_of_none henter']
  | body hpending =>
    obtain ⟨out, hout, hstart⟩ := start_of_enter henter visited store
    obtain ⟨n, hn⟩ := (h.descends hout hpending).iterate []
    rw [hstart, start_of_iterate henter' hn]

end Simulates

variable {known : String → Prop}

/-- The walks differ at most in the bodies of symbols that are not known, and known bodies call
known symbols only. -/
structure Agrees (w w' : Walk ε σ α) (known : String → Prop) : Prop where
  enter : ∀ symbol caller, known symbol → w'.enter symbol caller = w.enter symbol caller
  closed : ∀ {symbol caller frame}, known symbol → w.enter symbol caller = .ok (some frame) →
    ∀ m ∈ frame.pending, known m.symbol
  note : w'.note = w.note
  follows : w'.follows = w.follows
  leave : w'.leave = w.leave
  gather : w'.gather = w.gather

theorem Agrees.entered (h : w.Agrees w' known) {symbol : String} (hsymbol : known symbol)
    (caller : Option Mention) : Entered (fun call call' => call = call' ∧ known call.symbol)
      (w.enter symbol caller) (w'.enter symbol caller) := by
  rw [h.enter symbol caller hsymbol]
  match henter : w.enter symbol caller with
  | .error _ => exact .refused
  | .ok none => exact .absent
  | .ok (some _) => exact .body (List.forall₂_same.mpr fun m hm => ⟨rfl, h.closed hsymbol henter m hm⟩)

theorem Agrees.simulates (h : w.Agrees w' known) :
    w.Simulates w' fun call call' => call = call' ∧ known call.symbol where
  site := by
    rintro call _ ⟨rfl, _⟩
    rfl
  enter := by
    rintro call _ ⟨rfl, hknown⟩
    exact h.entered hknown (some call)
  note := by
    rintro call _ ⟨rfl, _⟩ gathered
    rw [h.note]
  follows := by
    rintro call _ ⟨rfl, _⟩ store gathered
    rw [h.follows]
  leave := h.leave
  gather := h.gather

theorem Agrees.start_eq (h : w.Agrees w' known) {symbol : String} (hsymbol : known symbol)
    (caller : Option Mention) (visited : List CallSite) (store : σ) :
    w'.start symbol caller visited store = w.start symbol caller visited store :=
  h.simulates.start_eq (h.entered hsymbol caller) visited store

end StaticCalls.Walk
