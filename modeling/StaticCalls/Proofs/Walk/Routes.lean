import StaticCalls.Proofs.Walk.Coverage

/-! Routes through the calls of bodies. A depth-first walk takes the calls of each body in order, so
that of all routes to a site it comes along the one that is first by the positions of its calls. -/
namespace StaticCalls.Walk
open Relation
variable {callsOf : String → List Mention} {calls rest : List Mention} {call : Mention}
  {route : List Nat} {x y : CallSite}

/-- Each number picks a call of the body that the route has come to; the last one picks the site
where it ends. -/
inductive Route (callsOf : String → List Mention) : List Mention → List Nat → CallSite → Prop where
  | stop {calls i call} (hcall : calls[i]? = some call) : Route callsOf calls [i] call.site
  | go {calls i call route x} (hcall : calls[i]? = some call)
      (hrest : Route callsOf (callsOf call.symbol) route x) : Route callsOf calls (i :: route) x

theorem Route.ne_nil (h : Route callsOf calls route x) : route ≠ [] := by
  cases h <;> simp

theorem route_cons_iff {i : Nat} : Route callsOf calls (i :: route) x ↔
    ∃ call, calls[i]? = some call ∧
      (route = [] ∧ x = call.site ∨ Route callsOf (callsOf call.symbol) route x) := by
  constructor
  · intro h
    cases h with
    | @stop _ _ call hcall => exact ⟨call, hcall, .inl ⟨rfl, rfl⟩⟩
    | @go _ _ call _ _ hcall hrest => exact ⟨call, hcall, .inr hrest⟩
  · rintro ⟨call, hcall, ⟨rfl, rfl⟩ | hrest⟩
    · exact .stop hcall
    · exact .go hcall hrest

theorem route_zero_iff : Route callsOf (call :: rest) (0 :: route) x ↔
    route = [] ∧ x = call.site ∨ Route callsOf (callsOf call.symbol) route x := by
  simp [route_cons_iff]

theorem route_succ_iff {i : Nat} : Route callsOf (call :: rest) ((i + 1) :: route) x ↔
    Route callsOf rest (i :: route) x := by
  simp [route_cons_iff]

theorem Route.unique (hx : Route callsOf calls route x) (hy : Route callsOf calls route y) :
    x = y := by
  induction hx with
  | stop hcall =>
    obtain ⟨call, hcall', ⟨_, rfl⟩ | hrest⟩ := route_cons_iff.mp hy
    · rw [hcall] at hcall'
      cases hcall'
      rfl
    · exact absurd rfl hrest.ne_nil
  | go hcall hrest ih =>
    obtain ⟨call, hcall', ⟨hnil, _⟩ | hrest'⟩ := route_cons_iff.mp hy
    · exact absurd hnil hrest.ne_nil
    · rw [hcall] at hcall'
      cases hcall'
      exact ih hrest'

theorem below_iff_route : Below callsOf calls x ↔ ∃ route, Route callsOf calls route x := by
  constructor
  · rintro ⟨m, hm, hreach⟩
    obtain ⟨start, hstart⟩ : ∃ start, m.site = start := ⟨_, rfl⟩
    rw [hstart] at hreach
    -- from the front on, as a route grows there
    induction hreach using ReflTransGen.head_induction_on generalizing calls m with
    | refl =>
      obtain ⟨i, hi⟩ := List.mem_iff_getElem?.mp hm
      exact ⟨[i], hstart ▸ .stop hi⟩
    | head hlead _ ih =>
      obtain ⟨m', hm', hsite⟩ := hlead
      obtain ⟨i, hi⟩ := List.mem_iff_getElem?.mp hm
      rw [← hstart] at hm'
      obtain ⟨route, hroute⟩ := ih m' hm' hsite
      exact ⟨i :: route, .go hi hroute⟩
  · rintro ⟨route, h⟩
    induction h with
    | stop hcall => exact ⟨_, List.mem_of_getElem? hcall, .refl⟩
    | go hcall _ ih => exact ⟨_, List.mem_of_getElem? hcall, reaches_site_iff.mpr (.inr ih)⟩

theorem Route.snoc {i : Nat} (h : Route callsOf calls route x)
    (hcall : (callsOf x.symbol)[i]? = some call) :
    Route callsOf calls (route ++ [i]) call.site := by
  induction h with
  | stop hfirst => exact .go hfirst (.stop hcall)
  | go hfirst _ ih => exact .go hfirst (ih hcall)

theorem Route.of_snoc {i : Nat} (h : Route callsOf calls (route ++ [i]) y) (hne : route ≠ []) :
    ∃ x, Route callsOf calls route x ∧ callsOf x.symbol ≠ [] := by
  induction route generalizing calls with
  | nil => exact absurd rfl hne
  | cons j route ih =>
    obtain ⟨call, hcall, ⟨hnil, _⟩ | hrest⟩ := route_cons_iff.mp h
    · simp at hnil
    · cases route with
      | nil =>
        refine ⟨call.site, .stop hcall, ?_⟩
        obtain ⟨next, hnext, _⟩ := route_cons_iff.mp hrest
        exact List.ne_nil_of_mem (List.mem_of_getElem? hnext)
      | cons k route =>
        obtain ⟨x, hroute, hcalls⟩ := ih hrest (List.cons_ne_nil k route)
        exact ⟨x, .go hcall hroute, hcalls⟩

/-! ### First routes -/

theorem succ_cons_lt_iff {i j : Nat} {l l' : List Nat} :
    (i + 1) :: l < (j + 1) :: l' ↔ i :: l < j :: l' := by
  simp [List.cons_lt_cons_iff]

/-- No route to the same site comes before this one. -/
structure IsFirst (callsOf : String → List Mention) (calls : List Mention) (route : List Nat)
    (x : CallSite) : Prop where
  isRoute : Route callsOf calls route x
  first : ∀ other, Route callsOf calls other x → ¬ other < route

/-- Through the first call, unless that one can be reached again from its own target. -/
theorem isFirst_zero_iff (hcall : ¬ Below callsOf (callsOf call.symbol) call.site) :
    IsFirst callsOf (call :: rest) (0 :: route) x ↔
      route = [] ∧ x = call.site ∨ IsFirst callsOf (callsOf call.symbol) route x := by
  constructor
  · rintro ⟨hroute, hfirst⟩
    rcases route_zero_iff.mp hroute with hsite | hrest
    · exact .inl hsite
    · refine .inr ⟨hrest, fun other hother hlt => ?_⟩
      apply hfirst (0 :: other) (route_zero_iff.mpr (.inr hother))
      exact List.cons_lt_cons_iff.mpr (.inr ⟨rfl, hlt⟩)
  · rintro (⟨rfl, rfl⟩ | ⟨hrest, hfirst⟩)
    · refine ⟨route_zero_iff.mpr (.inl ⟨rfl, rfl⟩), fun other hother hlt => ?_⟩
      cases other with
      | nil => exact hother.ne_nil rfl
      | cons i other =>
        rcases List.cons_lt_cons_iff.mp hlt with hi | ⟨_, hnil⟩
        · exact Nat.not_lt_zero i hi
        · exact List.not_lt_nil other hnil
    · refine ⟨route_zero_iff.mpr (.inr hrest), fun other hother hlt => ?_⟩
      cases other with
      | nil => exact hother.ne_nil rfl
      | cons i other =>
        rcases List.cons_lt_cons_iff.mp hlt with hi | ⟨rfl, hrest_lt⟩
        · exact Nat.not_lt_zero i hi
        · rcases route_zero_iff.mp hother with ⟨_, rfl⟩ | hother
          · exact hcall (below_iff_route.mpr ⟨route, hrest⟩)
          · exact hfirst other hother hrest_lt

/-- Through a later call, to what the first one does not lead to. -/
theorem isFirst_succ_iff {i : Nat} : IsFirst callsOf (call :: rest) ((i + 1) :: route) x ↔
    IsFirst callsOf rest (i :: route) x ∧ ¬ ReflTransGen (Leads callsOf) call.site x := by
  rw [reaches_site_iff]
  constructor
  · rintro ⟨hroute, hfirst⟩
    refine ⟨⟨route_succ_iff.mp hroute, fun other hother hlt => ?_⟩, ?_⟩
    · cases other with
      | nil => exact hother.ne_nil rfl
      | cons j other =>
        exact hfirst ((j + 1) :: other) (route_succ_iff.mpr hother) (succ_cons_lt_iff.mpr hlt)
    · have hlt (other : List Nat) : 0 :: other < (i + 1) :: route :=
        List.cons_lt_cons_iff.mpr (.inl (Nat.succ_pos i))
      rintro (rfl | hbelow)
      · exact hfirst [0] (route_zero_iff.mpr (.inl ⟨rfl, rfl⟩)) (hlt [])
      · obtain ⟨other, hother⟩ := below_iff_route.mp hbelow
        exact hfirst (0 :: other) (route_zero_iff.mpr (.inr hother)) (hlt other)
  · rintro ⟨⟨hroute, hfirst⟩, hnot⟩
    refine ⟨route_succ_iff.mpr hroute, fun other hother hlt => ?_⟩
    cases other with
    | nil => exact hother.ne_nil rfl
    | cons j other =>
      cases j with
      | zero =>
        rcases route_zero_iff.mp hother with ⟨_, hsite⟩ | hother
        · exact hnot (.inl hsite)
        · exact hnot (.inr (below_iff_route.mpr ⟨other, hother⟩))
      | succ j =>
        exact hfirst (j :: other) (route_succ_iff.mp hother) (succ_cons_lt_iff.mp hlt)

/-! ### How far first routes reach -/

/-- Some first route of `k` or more calls ends at a site of this kind. -/
def FirstReaches (callsOf : String → List Mention) (calls : List Mention) (kind : CallSite → Prop)
    (k : Nat) : Prop :=
  ∃ route x, IsFirst callsOf calls route x ∧ kind x ∧ k ≤ route.length

section Kind
variable {kind kind' : CallSite → Prop} {k : Nat}

theorem not_firstReaches (hkind : ∀ x, Below callsOf calls x → ¬ kind x) :
    ¬ FirstReaches callsOf calls kind k := by
  rintro ⟨route, x, hfirst, hx, _⟩
  exact hkind x (below_iff_route.mpr ⟨route, hfirst.isRoute⟩) hx

theorem not_firstReaches_nil : ¬ FirstReaches callsOf [] kind k := by
  refine not_firstReaches fun x hx => ?_
  obtain ⟨m, hm, _⟩ := hx
  cases hm

/-- Only what lies below the calls counts. -/
theorem firstReaches_congr (hkind : ∀ x, Below callsOf calls x → (kind x ↔ kind' x)) :
    FirstReaches callsOf calls kind k ↔ FirstReaches callsOf calls kind' k := by
  constructor
  · rintro ⟨route, x, hfirst, hx, hk⟩
    have hbelow := below_iff_route.mpr ⟨route, hfirst.isRoute⟩
    exact ⟨route, x, hfirst, (hkind x hbelow).mp hx, hk⟩
  · rintro ⟨route, x, hfirst, hx, hk⟩
    have hbelow := below_iff_route.mpr ⟨route, hfirst.isRoute⟩
    exact ⟨route, x, hfirst, (hkind x hbelow).mpr hx, hk⟩

/-- First routes stop at the first call, pass through it, or avoid all that it leads to. -/
theorem firstReaches_cons_iff (hcall : ¬ Below callsOf (callsOf call.symbol) call.site) :
    FirstReaches callsOf (call :: rest) kind k ↔
      kind call.site ∧ k ≤ 1 ∨ FirstReaches callsOf (callsOf call.symbol) kind (k - 1) ∨
        FirstReaches callsOf rest
          (fun x => kind x ∧ ¬ ReflTransGen (Leads callsOf) call.site x) k := by
  constructor
  · rintro ⟨route, x, hfirst, hx, hk⟩
    cases route with
    | nil => exact absurd rfl hfirst.isRoute.ne_nil
    | cons i route =>
      cases i with
      | zero =>
        rcases (isFirst_zero_iff hcall).mp hfirst with ⟨rfl, rfl⟩ | hbelow
        · exact .inl ⟨hx, hk⟩
        · exact .inr (.inl ⟨route, x, hbelow, hx, Nat.sub_le_of_le_add hk⟩)
      | succ i =>
        obtain ⟨hrest, hnot⟩ := isFirst_succ_iff.mp hfirst
        exact .inr (.inr ⟨i :: route, x, hrest, ⟨hx, hnot⟩, hk⟩)
  · rintro (⟨hx, hk⟩ | ⟨route, x, hfirst, hx, hk⟩ | ⟨route, x, hfirst, ⟨hx, hnot⟩, hk⟩)
    · exact ⟨[0], call.site, (isFirst_zero_iff hcall).mpr (.inl ⟨rfl, rfl⟩), hx, hk⟩
    · exact ⟨0 :: route, x, (isFirst_zero_iff hcall).mpr (.inr hfirst), hx, Nat.le_add_of_sub_le hk⟩
    · cases route with
      | nil => exact absurd rfl hfirst.isRoute.ne_nil
      | cons i route => exact ⟨(i + 1) :: route, x, isFirst_succ_iff.mpr ⟨hfirst, hnot⟩, hx, hk⟩

end Kind
end StaticCalls.Walk
