import StaticCalls.Proofs.Scope.Placements
import Mathlib

/-! What a reference does to those after it. A body that a reference starts in and goes on past is
closed from then on. Where bodies nest this is all that one reference can do to another, and the
sweep finds the body it would find without the bodies that are closed, so that taking a reference
away leaves the owner of another one as it is unless it had closed the body that this one then
belongs to (`owner?_without_eq_iff`). -/
namespace StaticCalls

namespace SourceRange
variable {q r s : SourceRange}

/-- The ranges are apart, if only touching, or one of them contains the other. -/
def Nest (r s : SourceRange) : Prop :=
  r.stop ≤ s.start ∨ s.stop ≤ r.start ∨ r.contains s ∨ s.contains r

instance : Decidable (r.Nest s) :=
  inferInstanceAs (Decidable (r.stop ≤ s.start ∨ s.stop ≤ r.start ∨ r.contains s ∨ s.contains r))

/-- `q` starts in `s` before `r` does, and goes on past the end of `s`. -/
def Closes (q s r : SourceRange) : Prop := q.start < r.start ∧ q.Straddles s

instance : Decidable (q.Closes s r) :=
  inferInstanceAs (Decidable (q.start < r.start ∧ q.Straddles s))

/-- Of the references before `r`, those that straddle a body around `r` close it. -/
theorem closes_iff_straddles (hbefore : q.NotAfter r) (hr : s.contains r) :
    q.Closes s r ↔ q.Straddles s := by
  rw [contains_iff_rank] at hr
  unfold NotAfter at hbefore
  simp only [Closes, Straddles, Position.le_iff_rank_le, Position.lt_iff_rank_lt]
  omega

theorem not_closes_of_notAfter (h : r.NotAfter q) : ¬ q.Closes s r := by
  rintro ⟨hstart, _⟩
  rw [Position.lt_iff_rank_lt] at hstart
  have hle := h.start_le
  omega

end SourceRange

/-- The list loses only elements before the first one at which dropping stops. -/
theorem dropWhile_filter {α : Type} {p q : α → Bool} {l : List α} (h : ∀ a ∈ l.dropWhile q, p a) :
    (l.filter p).dropWhile q = l.dropWhile q := by
  induction l with
  | nil => rfl
  | cons a rest ih =>
    by_cases hq : q a
    · rw [List.dropWhile_cons_of_pos hq] at h ⊢
      by_cases hp : p a
      · rw [List.filter_cons_of_pos hp, List.dropWhile_cons_of_pos hq, ih h]
      · rw [List.filter_cons_of_neg hp, ih h]
    · rw [List.dropWhile_cons_of_neg hq] at h ⊢
      rw [List.filter_eq_self.mpr h, List.dropWhile_cons_of_neg hq]

theorem takeWhile_filter {α : Type} {p q : α → Bool} {l : List α} (h : ∀ a ∈ l.dropWhile q, p a) :
    (l.filter p).takeWhile q = (l.takeWhile q).filter p := by
  induction l with
  | nil => rfl
  | cons a rest ih =>
    by_cases hq : q a
    · rw [List.dropWhile_cons_of_pos hq] at h
      rw [List.takeWhile_cons_of_pos hq]
      by_cases hp : p a
      · rw [List.filter_cons_of_pos hp, List.filter_cons_of_pos hp, List.takeWhile_cons_of_pos hq,
          ih h]
      · rw [List.filter_cons_of_neg hp, List.filter_cons_of_neg hp, ih h]
    · rw [List.dropWhile_cons_of_neg hq] at h
      rw [List.filter_eq_self.mpr h, List.takeWhile_cons_of_neg hq]
      rfl

namespace Body
variable {b c : Body} {r : SourceRange}

/-- Of two bodies that start together the one that opens first reaches as far as the other. -/
theorem stop_le_of_order (h : (b.order c).isLE)
    (hstart : b.range.start.rank = c.range.start.rank) : c.range.stop.rank ≤ b.range.stop.rank := by
  simp only [order, Ordering.isLE_then_iff_or, Position.compare_eq_lt_iff,
    Position.compare_eq_eq_iff] at h
  omega

/-- A body that opens no later than one that contains the range is not straddled by the range. -/
theorem not_straddles_of_nest (hnest : b.range.Nest c.range) (horder : (b.order c).isLE)
    (hr : c.range.contains r) : ¬ r.Straddles b.range := by
  have hstart := start_le_of_order horder
  have hstop := stop_le_of_order horder
  simp only [SourceRange.Nest, SourceRange.contains_iff_rank, Position.le_iff_rank_le] at hnest
  rw [SourceRange.contains_iff_rank] at hr
  simp only [SourceRange.Straddles, Position.le_iff_rank_le, Position.lt_iff_rank_lt]
  omega

def isSparedBy (b : Body) (r : SourceRange) : Bool := !decide (r.Straddles b.range)

theorem isSparedBy_iff : b.isSparedBy r ↔ ¬ r.Straddles b.range := by
  simp [isSparedBy]

end Body

namespace Sweep
variable {bodies : List Body} {s : Sweep} {r : SourceRange} {m : Mention} {pending : List Mention}

/-- The sweep without the bodies that the range straddles. -/
def spare (s : Sweep) (r : SourceRange) : Sweep where
  upcoming := s.upcoming.filter (·.isSparedBy r)
  active := s.active.filter (·.isSparedBy r)

theorem remaining_spare (s : Sweep) (r : SourceRange) :
    (s.spare r).remaining = s.remaining.filter (·.isSparedBy r) := by
  rw [remaining, remaining, List.filter_append, List.filter_reverse]
  rfl

/-- In nested bodies, what is still open behind a reference is not straddled by it. -/
theorem isSparedBy_of_mem_advance (hsorted : s.remaining.Pairwise fun a b => (a.order b).isLE)
    (hnest : ∀ b ∈ s.remaining, ∀ c ∈ s.remaining, b.range.Nest c.range) {b : Body}
    (hb : b ∈ (s.advance r).active) : b.isSparedBy r := by
  rw [remaining_eq_opened s r] at hsorted hnest
  have hsuffix : (s.advance r).active <:+ s.opened r := List.dropWhile_suffix _
  have hmem {b : Body} (hb : b ∈ (s.advance r).active) :
      b ∈ (s.opened r).reverse ++ (s.advance r).upcoming :=
    List.mem_append_left _ (List.mem_reverse.mpr (hsuffix.subset hb))
  have horder := ((List.pairwise_reverse.mp (List.pairwise_append.mp hsorted).1).sublist
    hsuffix.sublist)
  cases hactive : (s.advance r).active with
  | nil => simp [hactive] at hb
  | cons top below =>
    have htop : top.range.contains r := contains_of_head?_advance (by rw [hactive]; rfl)
    have hle : (b.order top).isLE := by
      rw [hactive] at hb horder
      rcases List.mem_cons.mp hb with rfl | hbelow
      · exact Std.ReflCmp.isLE_rfl
      · exact (List.pairwise_cons.mp horder).1 b hbelow
    have htopmem : top ∈ (s.advance r).active := by
      rw [hactive]
      exact List.mem_cons_self
    exact Body.isSparedBy_iff.mpr
      (Body.not_straddles_of_nest (hnest b (hmem hb) top (hmem htopmem)) hle htop)

/-- A reference closes the bodies that it straddles, so that they might as well not be there. -/
theorem advance_spare (hsorted : s.remaining.Pairwise fun a b => (a.order b).isLE)
    (hnest : ∀ b ∈ s.remaining, ∀ c ∈ s.remaining, b.range.Nest c.range) :
    (s.spare r).advance r = s.advance r := by
  have hupcoming := (List.pairwise_append.mp hsorted).2.1
  have hlater : ∀ b ∈ s.upcoming.dropWhile (opens r), b.isSparedBy r := by
    intro b hb
    have hlt := lt_start_of_mem_upcoming hupcoming hb
    rw [Body.isSparedBy_iff]
    rintro ⟨hle, _⟩
    rw [Position.le_iff_rank_le] at hle
    omega
  have hopened : (s.spare r).opened r = (s.opened r).filter (·.isSparedBy r) := by
    rw [opened, opened, List.filter_append, List.filter_reverse, ← takeWhile_filter hlater]
    rfl
  have hactive : ((s.spare r).advance r).active = (s.advance r).active := by
    show ((s.spare r).opened r).dropWhile _ = _
    rw [hopened]
    exact dropWhile_filter fun b hb => isSparedBy_of_mem_advance hsorted hnest hb
  have hupcoming' : ((s.spare r).advance r).upcoming = (s.advance r).upcoming :=
    dropWhile_filter hlater
  cases hs : (s.spare r).advance r
  cases hs' : s.advance r
  simp only [hs, hs'] at hactive hupcoming'
  rw [hactive, hupcoming']

namespace Ready

theorem spare (h : Ready bodies s pending) (r : SourceRange) :
    Ready (bodies.filter (·.isSparedBy r)) (s.spare r) pending where
  upcoming := h.upcoming.filter _
  subset b hb := by
    rw [remaining_spare] at hb
    obtain ⟨hin, hspared⟩ := List.mem_filter.mp hb
    exact List.mem_filter.mpr ⟨h.subset b hin, hspared⟩
  opened b hb := h.opened b (List.mem_of_mem_filter hb)
  kept m hm := by
    rw [remaining_spare, List.filter_comm, h.kept m hm, List.filter_comm]

/-- Among nested bodies, those left to the references after this one are those it spares. -/
theorem advance_of_nest (h : Ready bodies s (m :: pending))
    (hsorted : s.remaining.Pairwise fun a b => (a.order b).isLE)
    (hnest : ∀ b ∈ s.remaining, ∀ c ∈ s.remaining, b.range.Nest c.range)
    (hlater : ∀ n ∈ pending, (m.order n).isLE) (hwell : ∀ n ∈ pending, n.range.WellFormed) :
    Ready (bodies.filter (·.isSparedBy m.range)) (s.advance m.range) pending := by
  rw [← advance_spare hsorted hnest]
  refine (h.spare m.range).advance hlater hwell fun b hb => ?_
  exact Body.isSparedBy_iff.mp (List.mem_filter.mp hb).2

end Ready

/-- A search for each reference among the bodies that the references before it spare. -/
def searchEach (bodies : List Body) : List Mention → List (Mention × Option String)
  | [] => []
  | m :: rest =>
      (m, (bodies.filter fun b => b.range.contains m.range).getLast?.map Body.symbol) ::
        searchEach (bodies.filter (·.isSparedBy m.range)) rest

theorem Ready.place_eq_searchEach (h : Ready bodies s pending)
    (hsorted : s.remaining.Pairwise fun a b => (a.order b).isLE)
    (hnest : ∀ b ∈ s.remaining, ∀ c ∈ s.remaining, b.range.Nest c.range)
    (hpending : pending.Pairwise fun a b => (a.order b).isLE)
    (hwell : ∀ n ∈ pending, n.range.WellFormed) : s.place pending = searchEach bodies pending := by
  induction pending generalizing bodies s with
  | nil => rfl
  | cons m rest ih =>
    rw [List.pairwise_cons] at hpending
    rw [List.forall_mem_cons] at hwell
    have hsublist := remaining_advance_sublist s m.range
    have hnext := ih (h.advance_of_nest hsorted hnest hpending.1 hwell.2)
      (hsorted.sublist hsublist)
      (fun b hb c hc => hnest b (hsublist.subset hb) c (hsublist.subset hc)) hpending.2 hwell.2
    simp only [place, owner?, searchEach, h.head_advance, hnext]

end Sweep

/-- None of the references closes the body to the range. -/
def Body.isOpenTo (b : Body) (references : List Mention) (r : SourceRange) : Bool :=
  references.all fun q => !decide (q.range.Closes b.range r)

theorem Body.isOpenTo_of_notAfter {b : Body} {references : List Mention} {r : SourceRange}
    (h : ∀ q ∈ references, r.NotAfter q.range) : b.isOpenTo references r := by
  rw [isOpenTo, List.all_eq_true]
  intro q hq
  simpa using SourceRange.not_closes_of_notAfter (h q hq)

/-- Around a range, what the references before it do not close is what they spare. -/
theorem Body.isOpenTo_cons {b : Body} {q : Mention} {r : SourceRange} (hbefore : q.range.NotAfter r)
    (hr : b.range.contains r) (references : List Mention) :
    b.isOpenTo (q :: references) r = (b.isOpenTo references r && b.isSparedBy q.range) := by
  rw [isOpenTo, List.all_cons, Bool.and_comm, isOpenTo, isSparedBy,
    decide_eq_decide.mpr (SourceRange.closes_iff_straddles hbefore hr)]

namespace Sweep
variable {bodies : List Body} {references : List Mention}

theorem mem_of_mem_searchEach {m : Mention} {owner : Option String}
    (h : (m, owner) ∈ searchEach bodies references) : m ∈ references := by
  induction references generalizing bodies with
  | nil => cases h
  | cons q rest ih =>
    rw [searchEach, List.mem_cons, Prod.mk.injEq] at h
    rcases h with ⟨rfl, _⟩ | hin
    · exact List.mem_cons_self
    · exact List.mem_cons_of_mem _ (ih hin)

/-- It does not matter in which order the references come that close bodies to a later one. -/
theorem owner_of_mem_searchEach (hsorted : references.Pairwise fun a b => (a.order b).isLE)
    {m : Mention} {owner : Option String} (h : (m, owner) ∈ searchEach bodies references) :
    owner = (bodies.filter fun b =>
      b.range.contains m.range && b.isOpenTo references m.range).getLast?.map Body.symbol := by
  induction references generalizing bodies with
  | nil => cases h
  | cons q rest ih =>
    rw [List.pairwise_cons] at hsorted
    rw [searchEach, List.mem_cons, Prod.mk.injEq] at h
    rcases h with ⟨rfl, rfl⟩ | hin
    · have hopen : ∀ b : Body, b.isOpenTo (m :: rest) m.range := by
        intro b
        apply Body.isOpenTo_of_notAfter
        rw [List.forall_mem_cons]
        exact ⟨Mention.notAfter_of_order Std.ReflCmp.isLE_rfl,
          fun n hn => Mention.notAfter_of_order (hsorted.1 n hn)⟩
      simp only [hopen, Bool.and_true]
    · have hbefore := Mention.notAfter_of_order (hsorted.1 m (mem_of_mem_searchEach hin))
      rw [ih hsorted.2 hin, List.filter_filter]
      congr 2
      refine List.filter_congr fun b _ => ?_
      by_cases hcontains : b.range.contains m.range
      · rw [hcontains, Body.isOpenTo_cons hbefore hcontains, Bool.true_and, Bool.true_and]
      · simp [hcontains]

end Sweep

namespace Partition
variable {p : Partition} {m : Mention}

/-- Any two bodies of the document are apart or one within the other. -/
def Nested (p : Partition) : Prop :=
  ∀ b, p.HasBody b → ∀ c, p.HasBody c → b.range.Nest c.range

theorem nested_iff : p.Nested ↔ ∀ e ∈ p.definitions.entries, ∀ range ∈ e.2.body?,
    ∀ e' ∈ p.definitions.entries, ∀ range' ∈ e'.2.body?, range.Nest range' := by
  rw [Nested, forall_hasBody_iff (q := fun range => ∀ c, p.HasBody c → range.Nest c.range)]
  simp only [forall_hasBody_iff]

/-- A search through the bodies that the references of the document leave open to the range. -/
def searchOpen? (p : Partition) (r : SourceRange) : Option Body :=
  (p.bodies.filter fun b => b.range.contains r && b.isOpenTo p.references r).getLast?

theorem owner_of_mem_placements (hnested : p.Nested)
    (hwell : ∀ m ∈ p.references, m.range.WellFormed) {owner : Option String}
    (h : (m, owner) ∈ p.placements) : owner = (p.searchOpen? m.range).map Body.symbol := by
  have hremaining : Sweep.remaining ⟨p.bodies, []⟩ = p.bodies := rfl
  have hplace : p.placements = Sweep.searchEach p.bodies p.sortedReferences := by
    refine (Sweep.ready_start pairwise_bodies).place_eq_searchEach ?_ ?_
      pairwise_sortedReferences ?_
    · rw [hremaining]
      exact pairwise_bodies
    · rw [hremaining]
      intro b hb c hc
      exact hnested b (mem_bodies.mp hb) c (mem_bodies.mp hc)
    · intro n hn
      exact hwell n (List.mem_mergeSort.mp hn)
  rw [hplace] at h
  rw [Sweep.owner_of_mem_searchEach pairwise_sortedReferences h, searchOpen?]
  congr 2
  refine List.filter_congr fun b _ => ?_
  rw [Body.isOpenTo, Body.isOpenTo, sortedReferences, (List.mergeSort_perm _ _).all_eq]

end Partition

/-- The symbol in whose body the reference is recorded; there is none for one left unscoped. -/
def DocumentScopes.owner? (d : DocumentScopes) (m : Mention) : Option String :=
  (d.enclosed.entries.find? fun e => e.2.contains m).map Prod.fst

namespace Partition
variable {p : Partition} {m : Mention}

theorem mem_placements (hnested : p.Nested) (hwell : ∀ m ∈ p.references, m.range.WellFormed)
    (hm : m ∈ p.references) : (m, (p.searchOpen? m.range).map Body.symbol) ∈ p.placements := by
  have hin : m ∈ p.placements.map Prod.fst := by
    rw [map_fst_placements]
    exact List.mem_mergeSort.mpr hm
  obtain ⟨⟨_, owner⟩, hplaced, rfl⟩ := List.mem_map.mp hin
  rw [← owner_of_mem_placements hnested hwell hplaced]
  exact hplaced

/-- A reference is recorded where it is placed. References that are alike are placed alike. -/
theorem owner?_resolve (hnested : p.Nested) (hwell : ∀ m ∈ p.references, m.range.WellFormed)
    (hm : m ∈ p.references) :
    p.resolve.owner? m = (p.searchOpen? m.range).map Body.symbol := by
  have hplaced := mem_placements hnested hwell hm
  have hrecorded : ∀ e ∈ p.resolve.enclosed.entries,
      m ∈ e.2 ↔ (p.searchOpen? m.range).map Body.symbol = some e.1 := by
    intro e he
    rw [enclosed_eq_placedUnder he, mem_placedUnder]
    constructor
    · intro h
      exact (owner_of_mem_placements hnested hwell h).symm
    · intro h
      rw [← h]
      exact hplaced
  unfold DocumentScopes.owner?
  cases hfind : p.resolve.enclosed.entries.find? fun e => e.2.contains m with
  | some e =>
    have hin : m ∈ e.2 := by simpa using List.find?_some hfind
    exact ((hrecorded e (List.mem_of_find?_eq_some hfind)).mp hin).symm
  | none =>
    cases hsearch : (p.searchOpen? m.range).map Body.symbol with
    | none => rfl
    | some symbol =>
      -- the body has an entry, so that looking through all entries comes to it
      rw [hsearch] at hplaced hrecorded
      obtain ⟨b, hb, rfl, _⟩ := hasBody_of_mem_placements hplaced
      obtain ⟨references, hget⟩ :=
        Option.isSome_iff_exists.mp (contains_enclosed_iff.mpr ⟨b, hb, rfl⟩)
      have he := StringMap.get?_eq_some_iff.mp hget
      have hnone := List.find?_eq_none.mp hfind _ he
      simp [(hrecorded _ he).mpr rfl] at hnone

/-- A symbol has one body. -/
theorem HasBody.unique {b c : Body} (hb : p.HasBody b) (hc : p.HasBody c)
    (h : b.symbol = c.symbol) : b = c := by
  obtain ⟨m, hm, hbody⟩ := hb
  obtain ⟨m', hm', hbody'⟩ := hc
  rw [h, hm', Option.some.injEq] at hm
  rw [← hm, hbody', Option.some.injEq] at hbody
  cases b
  cases c
  simp only at h hbody
  rw [h, hbody]

theorem hasBody_of_searchOpen? {r : SourceRange} {b : Body} (h : p.searchOpen? r = some b) :
    p.HasBody b :=
  mem_bodies.mp (List.mem_of_mem_filter (List.mem_of_getLast? h))

/-- The document without the reference at one place of its list. -/
def without (p : Partition) (i : Nat) : Partition :=
  { p with references := p.references.eraseIdx i }

variable {i j : Nat} {q r : Mention}

/-- A reference that goes away gives the bodies back that it closed. -/
theorem searchOpen?_eq_without (hq : p.references[i]? = some q) (r : SourceRange) :
    p.searchOpen? r = (((p.without i).bodies.filter fun b =>
      b.range.contains r && b.isOpenTo (p.without i).references r).filter fun b =>
        !decide (q.range.Closes b.range r)).getLast? := by
  obtain ⟨hi, rfl⟩ := List.getElem?_eq_some_iff.mp hq
  have hperm : (p.references[i] :: p.references.eraseIdx i).Perm p.references :=
    List.getElem_cons_eraseIdx_perm hi
  rw [List.filter_filter, searchOpen?]
  congr 1
  refine List.filter_congr fun b _ => ?_
  rw [Body.isOpenTo, ← hperm.all_eq, List.all_cons, without, Body.isOpenTo, Bool.and_left_comm]

theorem searchOpen?_of_not_closes (hq : p.references[i]? = some q) {r : SourceRange}
    (hopen : ∀ b, (p.without i).searchOpen? r = some b → ¬ q.range.Closes b.range r) :
    p.searchOpen? r = (p.without i).searchOpen? r := by
  rw [searchOpen?_eq_without hq]
  unfold searchOpen? at hopen ⊢
  cases hlast : ((p.without i).bodies.filter fun b =>
      b.range.contains r && b.isOpenTo (p.without i).references r).getLast? with
  | none =>
    rw [List.getLast?_eq_none_iff.mp hlast]
    rfl
  | some b =>
    obtain ⟨front, hsplit⟩ := List.getLast?_eq_some_iff.mp hlast
    have hb := hopen b hlast
    rw [hsplit, List.filter_append, List.filter_cons_of_pos (by simpa using hb)]
    exact List.getLast?_concat

/-- Among nested bodies, taking a reference away leaves the owner of another one as it is, unless
the other one then belongs to a body that the first had closed. -/
theorem owner?_without_eq_iff (hnested : p.Nested)
    (hwell : ∀ m ∈ p.references, m.range.WellFormed) (hq : p.references[i]? = some q)
    (hr : p.references[j]? = some r) (hne : i ≠ j) :
    (p.without i).resolve.owner? r = p.resolve.owner? r ↔
      ¬ ∃ b, p.HasBody b ∧ (p.without i).resolve.owner? r = some b.symbol ∧
        q.range.Closes b.range r.range := by
  have hleft : r ∈ (p.without i).references :=
    List.mem_eraseIdx_iff_getElem?.mpr ⟨j, hne.symm, hr⟩
  rw [owner?_resolve hnested hwell (List.mem_of_getElem? hr),
    owner?_resolve (p := p.without i) hnested
      (fun m hm => hwell m (List.mem_of_mem_eraseIdx hm)) hleft]
  constructor
  · rintro hsame ⟨b, hb, howner, hcloses⟩
    rw [hsame, Option.map_eq_some_iff] at howner
    obtain ⟨c, hc, hsymbol⟩ := howner
    rw [(hasBody_of_searchOpen? hc).unique hb hsymbol, searchOpen?_eq_without hq] at hc
    have hkept := (List.mem_filter.mp (List.mem_of_getLast? hc)).2
    simp [hcloses] at hkept
  · intro h
    rw [searchOpen?_of_not_closes hq]
    intro b hb hcloses
    exact h ⟨b, hasBody_of_searchOpen? (p := p.without i) hb, by rw [hb]; rfl, hcloses⟩

/-- The call that starts in `inner` and goes on past its end. -/
def overrunning : Mention := ⟨"overrun", .reference "x" (.ofCoordinates 3 0 12 0)⟩

/-- The call in `inner` that comes next. -/
def overtaken : Mention := ⟨"overrun", .reference "y" (.ofCoordinates 4 0 4 1)⟩

/-- Two bodies, one within the other, and two calls that both start in the inner one. -/
def overrun : Partition :=
  let body (symbol : String) (start stop : UInt32) : String × Mention :=
    (symbol, ⟨"overrun", .definition symbol (.ofCoordinates start 0 start 1)
      (some (.ofCoordinates start 0 stop 0))⟩)
  { document := "overrun"
    definitions := .ofList [body "outer" 0 20, body "inner" 2 8]
    references := [overrunning, overtaken] }

theorem overrun_nested : overrun.Nested := by
  rw [nested_iff]
  decide

theorem overrun_wellFormed : ∀ m ∈ overrun.references, m.range.WellFormed := by decide

theorem overrun_without_eq_iff : overrun.Nested ∧
    (∀ m ∈ overrun.references, m.range.WellFormed) ∧
    ((overrun.without 0).resolve.owner? overtaken = overrun.resolve.owner? overtaken ↔
      ¬ ∃ b, overrun.HasBody b ∧ (overrun.without 0).resolve.owner? overtaken = some b.symbol ∧
        overrunning.range.Closes b.range overtaken.range) :=
  ⟨overrun_nested, overrun_wellFormed,
    owner?_without_eq_iff overrun_nested overrun_wellFormed (i := 0) (j := 1) rfl rfl (by decide)⟩

/-- Without the call that closes `inner`, the other one belongs to `inner` rather than to `outer`,
although bodies and references are well formed and the bodies nest. -/
theorem overrun_owner_changes : overrun.Nested ∧
    (∀ b, overrun.HasBody b → b.range.WellFormed) ∧
    (∀ m ∈ overrun.references, m.range.WellFormed) ∧
    overrun.references[0]? = some overrunning ∧ overrun.references[1]? = some overtaken ∧
    overrun.resolve.owner? overtaken = some "outer" ∧
    (overrun.without 0).resolve.owner? overtaken = some "inner" := by
  refine ⟨overrun_nested, ?_, overrun_wellFormed, rfl, rfl, by cbv, by cbv⟩
  rw [forall_hasBody_iff (q := SourceRange.WellFormed)]
  decide

end Partition
end StaticCalls
