import StaticCalls.Proofs.Source.Containment
import StaticCalls.Scope.Sweep
import Mathlib.Data.List.TakeWhile

/-! The sweep against a search through all bodies. As long as no reference straddles the end of a
body, a body that the sweep has closed contains none of the references still to come, so that the
body on top is the last one in opening order among all that contain the reference. -/
namespace StaticCalls

namespace Body
variable {a b : Body}

instance : Std.TransCmp Body.order :=
  inferInstanceAs (Std.TransCmp (compareLex (compareOn fun b : Body => b.range.start)
    (compareLex (fun a b : Body => compareOn (fun b : Body => b.range.stop) b a)
      (compareOn Body.symbol))))

theorem start_le_of_order (h : (a.order b).isLE) : a.range.start.rank ≤ b.range.start.rank :=
  Position.isLE_compare_iff.mp (Ordering.isLE_left_of_isLE_then h)

/-- Bodies open in the opening order of their ranges, and by symbol where that leaves a tie. -/
theorem order_eq_then (a b : Body) : a.order b =
    (a.range.openingOrder b.range).then (compare a.symbol b.symbol) := by
  rw [order, SourceRange.openingOrder, Ordering.then_assoc]

/-- A body opens before every other one that it contains. -/
theorem order_lt_of_contains (h : a.range.contains b.range) (hne : a.range ≠ b.range) :
    a.order b = .lt := by
  rw [order_eq_then, SourceRange.openingOrder_lt_of_contains h hne]
  rfl

/-- Two bodies that neither opens before are the same one. -/
theorem eq_of_order_eq (h : a.order b = .eq) : a = b := by
  simp only [order, Ordering.then_eq_eq, Position.compare_eq_eq_iff, Std.compare_eq_iff_eq] at h
  obtain ⟨hstart, hstop, hsymbol⟩ := h
  have hrange := SourceRange.eq_of_rank_eq hstart hstop.symm
  cases a
  cases b
  simp only at hrange hsymbol
  rw [hrange, hsymbol]

end Body

namespace Mention
variable {a b : Mention}

instance : Std.TransCmp Mention.order :=
  inferInstanceAs (Std.TransCmp (compareLex (compareOn fun m : Mention => m.range.start)
    (compareLex (compareOn fun m : Mention => m.range.stop) (compareOn Mention.symbol))))

/-- References come in the reference order of their ranges, and by symbol where that leaves a tie. -/
theorem order_eq_then (a b : Mention) : a.order b =
    (a.range.referenceOrder b.range).then (compare a.symbol b.symbol) := by
  rw [order, SourceRange.referenceOrder, Ordering.then_assoc]

theorem notAfter_of_order (h : (a.order b).isLE) : a.range.NotAfter b.range := by
  rw [order_eq_then] at h
  exact SourceRange.isLE_referenceOrder_iff.mp (Ordering.isLE_left_of_isLE_then h)

end Mention

theorem isLE_or_isLE {α : Type} {cmp : α → α → Ordering} [Std.OrientedCmp cmp] (a b : α) :
    ((cmp a b).isLE || (cmp b a).isLE) = true := by
  by_cases h : (cmp a b).isLE
  · simp [h]
  · simp [Std.OrientedCmp.lt_of_not_isLE h]

/-- Sorting by a lawful order sorts. -/
theorem pairwise_mergeSort_isLE {α : Type} {cmp : α → α → Ordering} [Std.TransCmp cmp]
    (l : List α) : (l.mergeSort fun a b => (cmp a b).isLE).Pairwise fun a b => (cmp a b).isLE :=
  List.pairwise_mergeSort (fun _ _ _ => Std.TransCmp.isLE_trans) isLE_or_isLE l

theorem not_of_mem_dropWhile {α : Type} {le : α → α → Prop} {p : α → Bool} {l : List α} {x : α}
    (hl : l.Pairwise le) (hp : ∀ a b, le a b → p b → p a) (hx : x ∈ l.dropWhile p) : ¬ p x := by
  induction l with
  | nil => cases hx
  | cons a rest ih =>
    rw [List.pairwise_cons] at hl
    by_cases ha : p a
    · rw [List.dropWhile_cons_of_pos ha] at hx
      exact ih hl.2 hx
    · rw [List.dropWhile_cons_of_neg ha] at hx
      rcases List.mem_cons.mp hx with rfl | hin
      · exact ha
      · exact fun hpx => ha (hp a x (hl.1 x hin) hpx)

namespace Partition
variable {p : Partition} {b : Body} {r : SourceRange}

/-- The symbol is defined in the document, and this is the body of its definition. -/
def HasBody (p : Partition) (b : Body) : Prop :=
  ∃ m, p.definitions.get? b.symbol = some m ∧ m.body? = some b.range

theorem mem_bodies : b ∈ p.bodies ↔ p.HasBody b := by
  simp only [bodies, List.mem_mergeSort, List.mem_filterMap, Option.map_eq_some_iff, HasBody,
    StringMap.get?_eq_some_iff]
  constructor
  · rintro ⟨⟨symbol, m⟩, hin, range, hbody, rfl⟩
    exact ⟨m, hin, hbody⟩
  · rintro ⟨m, hin, hbody⟩
    exact ⟨(b.symbol, m), hin, b.range, hbody, rfl⟩

theorem forall_hasBody_iff {q : SourceRange → Prop} : (∀ b, p.HasBody b → q b.range) ↔
    ∀ e ∈ p.definitions.entries, ∀ range ∈ e.2.body?, q range := by
  constructor
  · intro h e he range hrange
    exact h ⟨e.1, range⟩ ⟨e.2, StringMap.get?_eq_some_iff.mpr he, hrange⟩
  · rintro h b ⟨m, hm, hbody⟩
    exact h (b.symbol, m) (StringMap.get?_eq_some_iff.mp hm) b.range hbody

theorem pairwise_bodies : p.bodies.Pairwise fun a b => (a.order b).isLE :=
  pairwise_mergeSort_isLE _

theorem pairwise_sortedReferences :
    p.sortedReferences.Pairwise fun a b => (a.order b).isLE :=
  pairwise_mergeSort_isLE _

/-- `b` contains the range and opens last of all bodies that do. -/
structure Owner (p : Partition) (r : SourceRange) (b : Body) : Prop where
  hasBody : p.HasBody b
  contains : b.range.contains r
  last : ∀ b', p.HasBody b' → b'.range.contains r → (b'.order b).isLE

/-- No body that contains the range lies strictly inside its owner. -/
theorem Owner.innermost (h : p.Owner r b) {b' : Body} (hb' : p.HasBody b')
    (hr : b'.range.contains r) (hin : b.range.contains b'.range) : b'.range = b.range := by
  by_contra hne
  have hlt : b.order b' = .lt := Body.order_lt_of_contains hin (Ne.symm hne)
  exact Std.OrientedCmp.not_lt_of_isLE (h.last b' hb' hr) hlt

theorem Owner.unique (h : p.Owner r b) {b' : Body} (h' : p.Owner r b') : b = b' :=
  Body.eq_of_order_eq (Std.OrientedCmp.isLE_antisymm
    (h'.last b h.hasBody h.contains) (h.last b' h'.hasBody h'.contains))

/-- A search through all bodies in opening order. -/
def search? (p : Partition) (r : SourceRange) : Option Body :=
  (p.bodies.filter fun b => b.range.contains r).getLast?

theorem owner_of_search? (h : p.search? r = some b) : p.Owner r b := by
  obtain ⟨front, hsplit⟩ := List.getLast?_eq_some_iff.mp h
  have hmem : ∀ b', b' ∈ front ++ [b] ↔ p.HasBody b' ∧ b'.range.contains r := by
    intro b'
    rw [← hsplit, List.mem_filter, mem_bodies]
  have hb := (hmem b).mp (by simp)
  have hsorted : (front ++ [b]).Pairwise fun a b => (a.order b).isLE := by
    rw [← hsplit]
    exact pairwise_bodies.sublist List.filter_sublist
  refine ⟨hb.1, hb.2, ?_⟩
  intro b' hb' hr
  rcases List.mem_append.mp ((hmem b').mpr ⟨hb', hr⟩) with hfront | hlast
  · exact (List.pairwise_append.mp hsorted).2.2 b' hfront b (by simp)
  · rw [List.mem_singleton.mp hlast]
    exact Std.ReflCmp.isLE_rfl

theorem search?_eq_none_iff :
    p.search? r = none ↔ ∀ b, p.HasBody b → ¬ b.range.contains r := by
  simp only [search?, List.getLast?_eq_none_iff, List.filter_eq_nil_iff, mem_bodies]

theorem search?_eq_some_iff : p.search? r = some b ↔ p.Owner r b := by
  constructor
  · exact owner_of_search?
  · intro h
    cases hs : p.search? r with
    | none => exact absurd h.contains (search?_eq_none_iff.mp hs b h.hasBody)
    | some b' => rw [(owner_of_search? hs).unique h]

end Partition

namespace Sweep
variable {bodies : List Body} {s : Sweep} {m : Mention} {pending : List Mention}

/-- The bodies that are not closed, in opening order. -/
def remaining (s : Sweep) : List Body := s.active.reverse ++ s.upcoming

/-- The open bodies when the sweep comes to a range, before any of them closes. -/
def opened (s : Sweep) (r : SourceRange) : List Body :=
  (s.upcoming.takeWhile (opens r)).reverse ++ s.active

theorem remaining_eq_opened (s : Sweep) (r : SourceRange) :
    s.remaining = (s.opened r).reverse ++ (s.advance r).upcoming := by
  simp only [remaining, opened, advance, List.reverse_append, List.reverse_reverse,
    List.append_assoc, List.takeWhile_append_dropWhile]

/-- Where a sweep stands before the references `pending`: closed bodies contain none of them. -/
structure Ready (bodies : List Body) (s : Sweep) (pending : List Mention) : Prop where
  upcoming : s.upcoming.Pairwise fun a b => (a.order b).isLE
  subset : ∀ b ∈ s.remaining, b ∈ bodies
  opened : ∀ b ∈ s.active, ∀ m ∈ pending, b.range.start.rank ≤ m.range.start.rank
  kept : ∀ m ∈ pending, s.remaining.filter (fun b => b.range.contains m.range) =
    bodies.filter fun b => b.range.contains m.range

theorem ready_start (h : bodies.Pairwise fun a b => (a.order b).isLE) :
    Ready bodies ⟨bodies, []⟩ pending where
  upcoming := h
  subset b hb := by simpa [remaining] using hb
  opened b hb := by simp at hb
  kept m _ := by simp [remaining]

/-- A body that has yet to open starts after the range. -/
theorem lt_start_of_mem_upcoming (h : s.upcoming.Pairwise fun a b => (a.order b).isLE)
    {r : SourceRange} {b : Body} (hb : b ∈ (s.advance r).upcoming) :
    r.start.rank < b.range.start.rank := by
  have hout : ¬ opens r b := by
    refine not_of_mem_dropWhile h ?_ hb
    intro a c hac hc
    have hstart := Body.start_le_of_order hac
    simp only [opens, decide_eq_true_eq, Position.le_iff_rank_le] at hc ⊢
    exact Nat.le_trans hstart hc
  simpa only [opens, decide_eq_true_eq, Position.le_iff_rank_le, Nat.not_le] using hout

theorem filter_upcoming_eq_nil (h : s.upcoming.Pairwise fun a b => (a.order b).isLE)
    (r : SourceRange) : (s.advance r).upcoming.filter (fun b => b.range.contains r) = [] := by
  rw [List.filter_eq_nil_iff]
  intro b hb hr
  have hlt := lt_start_of_mem_upcoming h hb
  have hle := (SourceRange.contains_iff_rank.mp hr).1
  omega

namespace Ready

/-- A body that is open when the sweep comes to a reference starts no later than the reference. -/
theorem start_le (h : Ready bodies s (m :: pending)) {b : Body} (hb : b ∈ s.opened m.range) :
    b.range.start.rank ≤ m.range.start.rank := by
  rcases List.mem_append.mp hb with hnew | hold
  · have hopens := List.mem_takeWhile_imp (List.mem_reverse.mp hnew)
    simpa only [opens, decide_eq_true_eq, Position.le_iff_rank_le] using hopens
  · exact h.opened b hold m List.mem_cons_self

/-- The body on top is the one that the search finds. -/
theorem head_advance (h : Ready bodies s (m :: pending)) :
    (s.advance m.range).active.head? =
      (bodies.filter fun b => b.range.contains m.range).getLast? := by
  have hfind : (s.advance m.range).active.head? =
      (s.opened m.range).find? fun b => b.range.contains m.range := by
    rw [List.find?_eq_head?_dropWhile_not]
    rfl
  rw [hfind, ← h.kept m List.mem_cons_self, remaining_eq_opened s m.range, List.filter_append,
    filter_upcoming_eq_nil h.upcoming, List.append_nil, List.filter_reverse,
    List.getLast?_reverse, List.head?_filter]

/-- A body that closes for a reference contains none of those that come after it. -/
theorem advance (h : Ready bodies s (m :: pending))
    (hlater : ∀ n ∈ pending, (m.order n).isLE) (hwell : ∀ n ∈ pending, n.range.WellFormed)
    (hin : ∀ b ∈ bodies, ¬ m.range.Straddles b.range) :
    Ready bodies (s.advance m.range) pending := by
  have hsplit := remaining_eq_opened s m.range
  have hopened : ∀ b ∈ s.opened m.range, b ∈ bodies := by
    intro b hb
    apply h.subset
    rw [hsplit]
    exact List.mem_append_left _ (List.mem_reverse.mpr hb)
  have hactive : (s.advance m.range).active <:+ s.opened m.range := List.dropWhile_suffix _
  refine ⟨h.upcoming.sublist (List.dropWhile_sublist _), ?_, ?_, ?_⟩
  · intro b hb
    rcases List.mem_append.mp hb with hopen | hup
    · exact hopened b (hactive.subset (List.mem_reverse.mp hopen))
    · apply h.subset
      rw [hsplit]
      exact List.mem_append_right _ hup
  · intro b hb n hn
    have hstart := h.start_le (hactive.subset hb)
    exact Nat.le_trans hstart (Mention.notAfter_of_order (hlater n hn)).start_le
  · intro n hn
    -- only what closes now is lost, and it does not contain `n`
    have hclosed : ((s.opened m.range).takeWhile fun b => !b.range.contains m.range).filter
        (fun b => b.range.contains n.range) = [] := by
      rw [List.filter_eq_nil_iff]
      intro b hb
      have hb' : b ∈ s.opened m.range := List.takeWhile_subset _ hb
      have hout : ¬ b.range.contains m.range := by simpa using List.mem_takeWhile_imp hb
      exact SourceRange.not_contains_of_notAfter (h.start_le hb') hout (hin b (hopened b hb'))
        (Mention.notAfter_of_order (hlater n hn)) (hwell n hn)
    calc (s.advance m.range).remaining.filter (fun b => b.range.contains n.range)
        = ((s.opened m.range).filter fun b => b.range.contains n.range).reverse ++
            (s.advance m.range).upcoming.filter fun b => b.range.contains n.range := by
          rw [← List.takeWhile_append_dropWhile (p := fun b => !b.range.contains m.range)
            (l := s.opened m.range), List.filter_append, hclosed, List.nil_append,
            ← List.filter_reverse, ← List.filter_append]
          rfl
      _ = s.remaining.filter fun b => b.range.contains n.range := by
          rw [hsplit, List.filter_append, List.filter_reverse]
      _ = bodies.filter fun b => b.range.contains n.range :=
          h.kept n (List.mem_cons_of_mem _ hn)

/-- The sweep places each reference where the search does. -/
theorem place_eq (h : Ready bodies s pending)
    (hsorted : pending.Pairwise fun a b => (a.order b).isLE)
    (hwell : ∀ n ∈ pending, n.range.WellFormed)
    (hin : ∀ n ∈ pending, ∀ b ∈ bodies, ¬ n.range.Straddles b.range) :
    s.place pending = pending.map fun n =>
      (n, (bodies.filter fun b => b.range.contains n.range).getLast?.map Body.symbol) := by
  induction pending generalizing s with
  | nil => rfl
  | cons m rest ih =>
    rw [List.pairwise_cons] at hsorted
    rw [List.forall_mem_cons] at hwell hin
    have hnext := h.advance hsorted.1 hwell.2 hin.1
    simp only [place, owner?, List.map_cons, h.head_advance, ih hnext hsorted.2 hwell.2 hin.2]

end Ready
end Sweep

namespace Partition
variable {p : Partition}

/-- No reference ends before it starts, and none goes on past the end of a body it starts in. -/
structure Tidy (p : Partition) : Prop where
  wellFormed : ∀ m ∈ p.references, m.range.WellFormed
  unstraddled : ∀ m ∈ p.references, ∀ b, p.HasBody b → ¬ m.range.Straddles b.range

theorem placements_eq (h : p.Tidy) :
    p.placements = p.sortedReferences.map fun m => (m, (p.search? m.range).map Body.symbol) := by
  apply Sweep.Ready.place_eq (Sweep.ready_start pairwise_bodies) pairwise_sortedReferences
  · intro n hn
    exact h.wellFormed n (List.mem_mergeSort.mp hn)
  · intro n hn b hb
    exact h.unstraddled n (List.mem_mergeSort.mp hn) b (mem_bodies.mp hb)

theorem placedUnder_perm (h : p.Tidy) (owner : Option String) :
    (placedUnder owner p.placements).Perm
      (p.references.filter fun m => (p.search? m.range).map Body.symbol == owner) := by
  rw [placements_eq h, placedUnder, List.filter_map, List.map_map]
  have hid : (Prod.fst ∘ fun m : Mention => (m, (p.search? m.range).map Body.symbol)) = id := rfl
  rw [hid, List.map_id]
  exact (List.mergeSort_perm _ _).filter _

/-- Only symbols with a body own references. -/
theorem filter_search_eq_nil {symbol : String}
    (h : (p.definitions.get? symbol).bind Mention.body? = none) :
    (p.references.filter fun m => (p.search? m.range).map Body.symbol == some symbol) = [] := by
  rw [List.filter_eq_nil_iff]
  intro m _ hm
  simp only [beq_iff_eq, Option.map_eq_some_iff] at hm
  obtain ⟨b, hb, rfl⟩ := hm
  obtain ⟨d, hd, hbody⟩ := (owner_of_search? hb).hasBody
  simp only [hd, Option.bind_some, hbody] at h
  cases h

theorem enclosed_perm (h : p.Tidy) (symbol : String) :
    (p.resolve.enclosed.getD symbol []).Perm
      (p.references.filter fun m => (p.search? m.range).map Body.symbol == some symbol) := by
  rw [StringMap.getD, get?_enclosed]
  cases hbody : (p.definitions.get? symbol).bind Mention.body? with
  | none => rw [filter_search_eq_nil hbody]; rfl
  | some range => exact placedUnder_perm h (some symbol)

/-- The sweep and the search give each reference the same body, which is an innermost one. -/
structure AgreesWithSearch (p : Partition) : Prop where
  enclosed : ∀ symbol, (p.resolve.enclosed.getD symbol []).Perm
    (p.references.filter fun m => (p.search? m.range).map Body.symbol == some symbol)
  unscoped : p.resolve.unscoped = p.references.countP fun m => (p.search? m.range).isNone
  found_iff : ∀ r b, p.search? r = some b ↔ p.Owner r b
  notFound_iff : ∀ r, p.search? r = none ↔ ∀ b, p.HasBody b → ¬ b.range.contains r
  innermost : ∀ r b, p.Owner r b → ∀ b', p.HasBody b' → b'.range.contains r →
    b.range.contains b'.range → b'.range = b.range

theorem resolve_agrees_with_search (h : p.Tidy) : p.AgreesWithSearch where
  enclosed := enclosed_perm h
  unscoped := by
    have hlength := (placedUnder_perm h none).length_eq
    rw [← List.countP_eq_length_filter] at hlength
    have hnone : (fun m : Mention => (p.search? m.range).map Body.symbol == none) =
        fun m => (p.search? m.range).isNone := by
      funext m
      cases p.search? m.range <;> rfl
    rw [hnone] at hlength
    exact hlength
  found_iff _ _ := search?_eq_some_iff
  notFound_iff _ := search?_eq_none_iff
  innermost _ _ h _ := h.innermost

/-- Two bodies that touch within a third one, with references on their common border. -/
def touching : Partition :=
  let body (symbol : String) (start stop : UInt32) : String × Mention :=
    (symbol, ⟨"touching", .definition symbol (.ofCoordinates start 0 start 1)
      (some (.ofCoordinates start 0 stop 0))⟩)
  let call (symbol : String) (start stop : UInt32) : Mention :=
    ⟨"touching", .reference symbol (.ofCoordinates start 0 stop 0)⟩
  { document := "touching"
    definitions := .ofList [body "a" 0 9, body "b" 2 5, body "c" 5 8]
    references := [call "x" 5 5, call "y" 5 6, call "z" 3 5, call "w" 9 10] }

theorem touching_agrees_with_search : touching.Tidy ∧ touching.AgreesWithSearch := by
  have htidy : touching.Tidy := by
    constructor
    · decide
    · intro m hm
      rw [forall_hasBody_iff (q := fun range => ¬ m.range.Straddles range)]
      revert m
      decide
  exact ⟨htidy, resolve_agrees_with_search htidy⟩

example : (touching.search? (.ofCoordinates 5 0 5 0)).map Body.symbol = some "c" := by cbv

end Partition
end StaticCalls
