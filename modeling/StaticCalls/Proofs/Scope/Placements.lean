import StaticCalls.Proofs.Scope.Innermost
import StaticCalls.Proofs.StringMap.Values

/-! Where the references of a document go, whatever its bodies and references look like. Each one is
placed once, and only in a body that contains it, so that the recorded references and those left
unscoped make up the references of the document (`references_perm`, `resolve_distributes`). -/
namespace StaticCalls
open scoped List

namespace Mention
variable {a b : Mention}

/-- By start, then by end, then by symbol, `a` stands before `b` or beside it. -/
def NotAfter (a b : Mention) : Prop :=
  a.range.start < b.range.start ∨ a.range.start = b.range.start ∧
    (a.range.stop < b.range.stop ∨ a.range.stop = b.range.stop ∧ a.symbol ≤ b.symbol)

theorem isLE_order_iff : (a.order b).isLE ↔ a.NotAfter b := by
  have hsymbol : (compare a.symbol b.symbol).isLE ↔ a.symbol ≤ b.symbol :=
    isLE_compareOfLessAndEq String.le_antisymm String.not_le String.le_total
  simp only [order, NotAfter, Ordering.isLE_then_iff_or, Position.compare_eq_lt_iff,
    Position.compare_eq_eq_iff, Position.lt_iff_rank_lt, Position.rank_inj, hsymbol]

end Mention

namespace Sweep
variable {m : Mention} {symbol : String}

theorem map_fst_place (s : Sweep) (references : List Mention) :
    (s.place references).map Prod.fst = references := by
  induction references generalizing s with
  | nil => rfl
  | cons r rest ih =>
    rw [place, List.map_cons, ih]

/-- Bodies close, but none comes back or changes its place. -/
theorem remaining_advance_sublist (s : Sweep) (r : SourceRange) :
    (s.advance r).remaining <+ s.remaining := by
  rw [remaining_eq_opened s r]
  exact ((List.dropWhile_sublist _).reverse).append_right _

/-- The body on top is the first one at which closing stops. -/
theorem contains_of_head?_advance {s : Sweep} {r : SourceRange} {b : Body}
    (h : (s.advance r).active.head? = some b) : b.range.contains r := by
  have htop := List.head?_dropWhile_not (fun b : Body => !b.range.contains r) (s.opened r)
  have hactive : ((s.opened r).dropWhile fun b => !b.range.contains r).head? = some b := h
  rw [hactive] at htop
  simpa using htop

theorem exists_body_of_mem_place {s : Sweep} {references : List Mention}
    (h : (m, some symbol) ∈ s.place references) :
    ∃ b ∈ s.remaining, b.symbol = symbol ∧ b.range.contains m.range := by
  induction references generalizing s with
  | nil => cases h
  | cons r rest ih =>
    rw [place, List.mem_cons] at h
    have hsublist := remaining_advance_sublist s r.range
    rcases h with heq | hin
    · simp only [Prod.mk.injEq, owner?, eq_comm (a := some symbol), Option.map_eq_some_iff] at heq
      obtain ⟨rfl, b, htop, rfl⟩ := heq
      have hb : b ∈ (s.advance m.range).remaining :=
        List.mem_append_left _ (List.mem_reverse.mpr (List.mem_of_head? htop))
      exact ⟨b, hsublist.subset hb, rfl, contains_of_head?_advance htop⟩
    · obtain ⟨b, hb, hrest⟩ := ih hin
      exact ⟨b, hsublist.subset hb, hrest⟩

end Sweep

namespace Partition
variable {p : Partition} {m : Mention}

theorem map_fst_placements (p : Partition) : p.placements.map Prod.fst = p.sortedReferences :=
  Sweep.map_fst_place _ _

theorem hasBody_of_mem_placements {symbol : String} (h : (m, some symbol) ∈ p.placements) :
    ∃ b, p.HasBody b ∧ b.symbol = symbol ∧ b.range.contains m.range := by
  obtain ⟨b, hb, hrest⟩ := Sweep.exists_body_of_mem_place h
  refine ⟨b, mem_bodies.mp ?_, hrest⟩
  simpa [Sweep.remaining] using hb

theorem mem_placedUnder {owner : Option String} {placements : List (Mention × Option String)} :
    m ∈ placedUnder owner placements ↔ (m, owner) ∈ placements := by
  simp [placedUnder]

/-- The references outside of all bodies. -/
def unscopedReferences (p : Partition) : List Mention := placedUnder none p.placements

theorem unscoped_resolve (p : Partition) : p.resolve.unscoped = p.unscopedReferences.length := rfl

theorem contains_enclosed_iff {symbol : String} :
    p.resolve.enclosed.contains symbol ↔ ∃ b, p.HasBody b ∧ b.symbol = symbol := by
  rw [StringMap.contains, get?_enclosed, Option.isSome_map, Option.isSome_iff_exists]
  simp only [Option.bind_eq_some_iff, HasBody]
  constructor
  · rintro ⟨range, d, hd, hbody⟩
    exact ⟨⟨symbol, range⟩, ⟨d, hd, hbody⟩, rfl⟩
  · rintro ⟨b, ⟨d, hd, hbody⟩, rfl⟩
    exact ⟨b.range, d, hd, hbody⟩

theorem enclosed_eq_placedUnder {e : String × List Mention} (he : e ∈ p.resolve.enclosed.entries) :
    e.2 = placedUnder (some e.1) p.placements := by
  have hget := StringMap.get?_eq_some_iff.mpr he
  rw [get?_enclosed, Option.map_eq_some_iff] at hget
  obtain ⟨_, _, hplaced⟩ := hget
  exact hplaced.symm

theorem values_enclosed (p : Partition) : p.resolve.enclosed.values =
    p.resolve.enclosed.keys.map fun symbol => placedUnder (some symbol) p.placements := by
  rw [StringMap.values, StringMap.keys, List.map_map]
  exact List.map_congr_left fun _ he => enclosed_eq_placedUnder he

/-- Setting the mentions of one owner aside leaves those of the others as they are. -/
theorem placedUnder_filter_ne {owner other : Option String} (hne : other ≠ owner)
    (placements : List (Mention × Option String)) :
    placedUnder other (placements.filter fun placed => !(placed.2 == owner)) =
      placedUnder other placements := by
  rw [placedUnder, List.filter_filter, placedUnder]
  congr 1
  refine List.filter_congr fun placed _ => ?_
  by_cases h : placed.2 = other <;> simp [h, hne]

/-- Mentions sorted by their owners, where the owners are known. -/
theorem perm_placedUnder {keys : List String} (hkeys : keys.Nodup)
    {placements : List (Mention × Option String)}
    (howner : ∀ placed ∈ placements, ∀ symbol ∈ placed.2, symbol ∈ keys) :
    placements.map Prod.fst ~
      (keys.flatMap fun symbol => placedUnder (some symbol) placements) ++
        placedUnder none placements := by
  induction keys generalizing placements with
  | nil =>
    have hnone : placedUnder none placements = placements.map Prod.fst := by
      rw [placedUnder, List.filter_eq_self.mpr]
      intro placed hplaced
      cases howned : placed.2 with
      | none => rfl
      | some symbol => exact absurd (howner placed hplaced symbol howned) List.not_mem_nil
    rw [hnone]
    exact .refl _
  | cons key keys ih =>
    rw [List.nodup_cons] at hkeys
    have hothers : ∀ placed ∈ placements.filter fun placed => !(placed.2 == some key),
        ∀ symbol ∈ placed.2, symbol ∈ keys := by
      intro placed hplaced symbol hsymbol
      obtain ⟨hin, hne⟩ := List.mem_filter.mp hplaced
      rcases List.mem_cons.mp (howner placed hin symbol hsymbol) with rfl | hkey
      · simp [Option.mem_def.mp hsymbol] at hne
      · exact hkey
    have hrest := ih hkeys.2 hothers
    have hkeyed : (keys.flatMap fun symbol => placedUnder (some symbol)
          (placements.filter fun placed => !(placed.2 == some key))) =
        keys.flatMap fun symbol => placedUnder (some symbol) placements := by
      refine List.flatMap_congr fun symbol hsymbol => placedUnder_filter_ne ?_ _
      rintro ⟨⟩
      exact hkeys.1 hsymbol
    rw [hkeyed, placedUnder_filter_ne (by simp)] at hrest
    calc placements.map Prod.fst
        ~ placedUnder (some key) placements ++
            (placements.filter fun placed => !(placed.2 == some key)).map Prod.fst := by
          rw [placedUnder, ← List.map_append]
          exact ((List.filter_append_perm _ _).symm).map _
      _ ~ _ := by
          rw [List.flatMap_cons, List.append_assoc]
          exact hrest.append_left _

/-- The references of a document are those recorded in a body and those left unscoped. -/
theorem references_perm (p : Partition) :
    p.references ~ p.resolve.enclosed.values.flatten ++ p.unscopedReferences := by
  have howner : ∀ placed ∈ p.placements, ∀ symbol ∈ placed.2,
      symbol ∈ p.resolve.enclosed.keys := by
    rintro ⟨m, _⟩ hplaced symbol rfl
    obtain ⟨b, hb, rfl, _⟩ := hasBody_of_mem_placements hplaced
    exact StringMap.mem_keys_iff.mpr (contains_enclosed_iff.mpr ⟨b, hb, rfl⟩)
  have hperm := perm_placedUnder p.resolve.enclosed.nodup_keys howner
  rw [map_fst_placements] at hperm
  rw [values_enclosed, ← List.flatMap_def]
  exact (List.mergeSort_perm _ _).symm.trans hperm

/-- What is recorded in one body is a part of the sorted references. -/
theorem placedUnder_sublist (p : Partition) (owner : Option String) :
    placedUnder owner p.placements <+ p.sortedReferences := by
  rw [← map_fst_placements]
  exact List.filter_sublist.map _

theorem pairwise_notAfter_placedUnder (p : Partition) (owner : Option String) :
    (placedUnder owner p.placements).Pairwise Mention.NotAfter :=
  (pairwise_sortedReferences.sublist (p.placedUnder_sublist owner)).imp Mention.isLE_order_iff.mp

/-- A body that a symbol has is the one that its recorded references lie in. -/
theorem contains_of_mem_placedUnder {b : Body} (hb : p.HasBody b)
    (hm : m ∈ placedUnder (some b.symbol) p.placements) : b.range.contains m.range := by
  obtain ⟨b', ⟨d', hd', hbody'⟩, hsymbol, hcontains⟩ :=
    hasBody_of_mem_placements (mem_placedUnder.mp hm)
  obtain ⟨d, hd, hbody⟩ := hb
  rw [hsymbol, hd, Option.some.injEq] at hd'
  rw [← hd', hbody, Option.some.injEq] at hbody'
  rw [hbody']
  exact hcontains

/-- The references of a document go to bodies that contain them or are counted as unscoped. -/
structure Distributes (p : Partition) : Prop where
  /-- No reference is lost, and none is placed twice. -/
  references : p.references ~ p.resolve.enclosed.values.flatten ++ p.unscopedReferences
  unscoped : p.resolve.unscoped = p.unscopedReferences.length
  contained : ∀ symbol placed, p.resolve.enclosed.get? symbol = some placed →
    ∃ range, p.HasBody ⟨symbol, range⟩ ∧ ∀ m ∈ placed, range.contains m.range
  contains_iff : ∀ symbol, p.resolve.enclosed.contains symbol ↔
    ∃ d, p.definitions.get? symbol = some d ∧ d.body?.isSome
  sorted : ∀ symbol placed, p.resolve.enclosed.get? symbol = some placed →
    placed.Pairwise Mention.NotAfter

/-- This holds of every document: bodies may overlap, ranges may be turned around, and references may
be repeated or straddle the end of a body. -/
theorem resolve_distributes (p : Partition) : p.Distributes where
  references := p.references_perm
  unscoped := p.unscoped_resolve
  contained symbol placed hget := by
    rw [get?_enclosed, Option.map_eq_some_iff] at hget
    obtain ⟨range, hrange, rfl⟩ := hget
    have hb : p.HasBody ⟨symbol, range⟩ := Option.bind_eq_some_iff.mp hrange
    exact ⟨range, hb, fun m hm => contains_of_mem_placedUnder hb hm⟩
  contains_iff symbol := by
    rw [contains_enclosed_iff]
    constructor
    · rintro ⟨b, ⟨d, hd, hbody⟩, rfl⟩
      exact ⟨d, hd, Option.isSome_iff_exists.mpr ⟨_, hbody⟩⟩
    · rintro ⟨d, hd, hbody⟩
      obtain ⟨range, hrange⟩ := Option.isSome_iff_exists.mp hbody
      exact ⟨⟨symbol, range⟩, ⟨d, hd, hrange⟩, rfl⟩
  sorted symbol placed hget := by
    rw [get?_enclosed, Option.map_eq_some_iff] at hget
    obtain ⟨_, _, rfl⟩ := hget
    exact p.pairwise_notAfter_placedUnder _

end Partition
end StaticCalls
