/-! Finite maps from strings, kept as one list in strictly ascending key order. The
representation is canonical: two maps with the same look-ups are equal (`StringMap.ext_get?`). -/
namespace StaticCalls

/-- A finite map from strings whose entries stand in code point order of their keys. -/
structure StringMap (α : Type) where
  entries : List (String × α)
  ascending : entries.Pairwise (·.1 < ·.1)

namespace StringMap
variable {α β : Type}

theorem lt_of_not_lt_of_ne {a b : String} (h : ¬ a < b) (hne : a ≠ b) : b < a := by
  apply Decidable.byContradiction
  intro h'
  exact hne (String.le_antisymm (String.not_lt.mp h') (String.not_lt.mp h))

def empty : StringMap α := ⟨[], .nil⟩

instance : Inhabited (StringMap α) := ⟨empty⟩

def find (key : String) : List (String × α) → Option α
  | [] => none
  | (k, v) :: rest => if k = key then some v else find key rest

def get? (m : StringMap α) (key : String) : Option α := find key m.entries

def getD (m : StringMap α) (key : String) (default : α) : α := (m.get? key).getD default

def contains (m : StringMap α) (key : String) : Bool := (m.get? key).isSome

def keys (m : StringMap α) : List String := m.entries.map Prod.fst

def values (m : StringMap α) : List α := m.entries.map Prod.snd

def size (m : StringMap α) : Nat := m.entries.length

def isEmpty (m : StringMap α) : Bool := m.entries.isEmpty

/-- One pass: the new entry takes its place or replaces the one of equal key. -/
def place (key : String) (value : α) : List (String × α) → List (String × α)
  | [] => [(key, value)]
  | (k, v) :: rest =>
      if key < k then (key, value) :: (k, v) :: rest
      else if key = k then (key, value) :: rest
      else (k, v) :: place key value rest

theorem mem_place {key : String} {value : α} {e : String × α} {l : List (String × α)}
    (h : e ∈ place key value l) : e = (key, value) ∨ e ∈ l := by
  induction l with
  | nil => simpa [place] using h
  | cons head rest ih =>
    obtain ⟨k, v⟩ := head
    simp only [place] at h
    split at h
    · simpa using h
    · split at h
      · simp only [List.mem_cons] at h ⊢
        exact h.imp_right .inr
      · simp only [List.mem_cons] at h ⊢
        rcases h with h | h
        · exact .inr (.inl h)
        · exact (ih h).imp_right .inr

theorem pairwise_place {key : String} {value : α} {l : List (String × α)}
    (h : l.Pairwise (·.1 < ·.1)) : (place key value l).Pairwise (·.1 < ·.1) := by
  induction l with
  | nil => simp [place]
  | cons head rest ih =>
    obtain ⟨k, v⟩ := head
    rw [List.pairwise_cons] at h
    simp only [place]
    split
    next hlt =>
      refine .cons ?_ (.cons h.1 h.2)
      intro e he
      rcases List.mem_cons.mp he with rfl | he
      · exact hlt
      · exact String.lt_trans hlt (h.1 e he)
    next hlt =>
      split
      next heq => subst heq; exact .cons h.1 h.2
      next hne =>
        refine .cons ?_ (ih h.2)
        intro e he
        rcases mem_place he with rfl | he
        · exact lt_of_not_lt_of_ne hlt hne
        · exact h.1 e he

def insert (m : StringMap α) (key : String) (value : α) : StringMap α :=
  ⟨place key value m.entries, pairwise_place m.ascending⟩

/-- Of several entries with one key the last one stays. -/
def ofList (entries : List (String × α)) : StringMap α :=
  entries.foldl (fun m e => m.insert e.1 e.2) empty

/-- Keeps the entries for which `f` has a value, under their keys. -/
def filterMap (f : String → α → Option β) (m : StringMap α) : StringMap β where
  entries := m.entries.filterMap fun e => (f e.1 e.2).map (e.1, ·)
  ascending := by
    refine List.Pairwise.filterMap _ ?_ m.ascending
    intro e e' hlt b hb b' hb'
    simp only [Option.map_eq_some_iff] at hb hb'
    obtain ⟨_, _, rfl⟩ := hb
    obtain ⟨_, _, rfl⟩ := hb'
    exact hlt

def map (f : α → β) (m : StringMap α) : StringMap β :=
  m.filterMap fun _ v => some (f v)

def filter (p : String → α → Bool) (m : StringMap α) : StringMap α :=
  m.filterMap fun k v => if p k v then some v else none

/-- Adds `value` at the end of the list under `key`. -/
def append (m : StringMap (List α)) (key : String) (value : α) : StringMap (List α) :=
  m.insert key (m.getD key [] ++ [value])

/-- The elements of each key, in the order of the list. -/
def groupBy (key : α → String) (l : List α) : StringMap (List α) :=
  l.foldr (fun a m => m.insert (key a) (a :: m.getD (key a) [])) empty

/-- How often each string occurs. -/
def histogram (l : List String) : StringMap Nat :=
  (groupBy id l).map List.length

/-- Adds the counts of `n` to those of `m`, key by key. -/
def add (m n : StringMap Nat) : StringMap Nat :=
  n.entries.foldl (fun sum e => sum.insert e.1 (sum.getD e.1 0 + e.2)) m

/-! ### Look-ups -/

@[simp] theorem get?_empty (key : String) : (empty : StringMap α).get? key = none := rfl

theorem find_place (key key' : String) (value : α) (l : List (String × α)) :
    find key' (place key value l) = if key = key' then some value else find key' l := by
  induction l with
  | nil => simp [place, find]
  | cons head rest ih =>
    obtain ⟨k, v⟩ := head
    simp only [place]
    split
    next => simp [find]
    next hlt =>
      split
      next heq => subst heq; by_cases h : key = key' <;> simp [find, h]
      next hne => grind [find]

@[simp] theorem get?_insert (m : StringMap α) (key key' : String) (value : α) :
    (m.insert key value).get? key' = if key = key' then some value else m.get? key' :=
  find_place key key' value m.entries

theorem find_eq_some_iff {key : String} {value : α} {l : List (String × α)}
    (h : l.Pairwise (·.1 < ·.1)) : find key l = some value ↔ (key, value) ∈ l := by
  induction l with
  | nil => simp [find]
  | cons head rest ih =>
    obtain ⟨k, v⟩ := head
    rw [List.pairwise_cons] at h
    simp only [find, List.mem_cons, Prod.mk.injEq]
    split
    next heq =>
      subst heq
      refine ⟨fun hv => .inl ⟨rfl, (Option.some.inj hv).symm⟩, fun hv => ?_⟩
      rcases hv with ⟨_, rfl⟩ | hv
      · rfl
      · exact absurd (h.1 _ hv) (String.lt_irrefl _)
    next hne =>
      rw [ih h.2]
      refine ⟨.inr, fun hv => ?_⟩
      rcases hv with ⟨rfl, _⟩ | hv
      · exact absurd rfl hne
      · exact hv

theorem get?_eq_some_iff {m : StringMap α} {key : String} {value : α} :
    m.get? key = some value ↔ (key, value) ∈ m.entries :=
  find_eq_some_iff m.ascending

theorem mem_keys_iff {m : StringMap α} {key : String} : key ∈ m.keys ↔ m.contains key := by
  simp only [keys, contains, List.mem_map, Option.isSome_iff_exists, get?_eq_some_iff]
  exact ⟨fun ⟨e, he, h⟩ => ⟨e.2, h ▸ he⟩, fun ⟨v, hv⟩ => ⟨_, hv, rfl⟩⟩

theorem eq_of_mem_iff {l l' : List (String × α)} (h : l.Pairwise (·.1 < ·.1))
    (h' : l'.Pairwise (·.1 < ·.1)) (hmem : ∀ e, e ∈ l ↔ e ∈ l') : l = l' := by
  induction l generalizing l' with
  | nil =>
    cases l' with
    | nil => rfl
    | cons head _ => exact absurd ((hmem head).mpr List.mem_cons_self) List.not_mem_nil
  | cons head rest ih =>
    cases l' with
    | nil => exact absurd ((hmem head).mp List.mem_cons_self) List.not_mem_nil
    | cons head' rest' =>
      rw [List.pairwise_cons] at h h'
      have hhead : head = head' := by
        rcases List.mem_cons.mp ((hmem head).mp List.mem_cons_self) with e | hin
        · exact e
        · rcases List.mem_cons.mp ((hmem head').mpr List.mem_cons_self) with e | hin'
          · exact e.symm
          · exact absurd (String.lt_trans (h.1 _ hin') (h'.1 _ hin)) (String.lt_irrefl _)
      subst hhead
      congr 1
      refine ih h.2 h'.2 fun e => ⟨fun he => ?_, fun he => ?_⟩
      · rcases List.mem_cons.mp ((hmem e).mp (List.mem_cons_of_mem _ he)) with rfl | hin
        · exact absurd (h.1 _ he) (String.lt_irrefl _)
        · exact hin
      · rcases List.mem_cons.mp ((hmem e).mpr (List.mem_cons_of_mem _ he)) with rfl | hin
        · exact absurd (h'.1 _ he) (String.lt_irrefl _)
        · exact hin

/-- A map is determined by its look-ups. -/
theorem ext_get? {m n : StringMap α} (h : ∀ key, m.get? key = n.get? key) : m = n := by
  have hentries : m.entries = n.entries :=
    eq_of_mem_iff m.ascending n.ascending fun e => by
      rw [← get?_eq_some_iff, ← get?_eq_some_iff, h]
  cases m
  cases n
  cases hentries
  rfl

theorem find_filterMap (f : String → α → Option β) (key : String) {l : List (String × α)}
    (h : l.Pairwise (·.1 < ·.1)) :
    find key (l.filterMap fun e => (f e.1 e.2).map (e.1, ·)) = (find key l).bind (f key) := by
  induction l with
  | nil => rfl
  | cons head rest ih =>
    obtain ⟨k, v⟩ := head
    rw [List.pairwise_cons] at h
    have ih := ih h.2
    cases hv : f k v with
    | some w =>
      simp only [List.filterMap_cons, hv, Option.map_some, find]
      by_cases hk : k = key
      · subst hk; simp [hv]
      · simp [hk, ih]
    | none =>
      simp only [List.filterMap_cons, hv, Option.map_none, find, ih]
      by_cases hk : k = key
      · subst hk
        cases hr : find k rest with
        | none => simp [hv]
        | some w =>
          exact absurd (h.1 _ ((find_eq_some_iff h.2).mp hr)) (String.lt_irrefl _)
      · simp [hk]

@[simp] theorem get?_filterMap (f : String → α → Option β) (m : StringMap α) (key : String) :
    (m.filterMap f).get? key = (m.get? key).bind (f key) :=
  find_filterMap f key m.ascending

@[simp] theorem get?_map (f : α → β) (m : StringMap α) (key : String) :
    (m.map f).get? key = (m.get? key).map f := by
  rw [map, get?_filterMap, Option.map_eq_bind]
  rfl

/-! ### The last entry of a list -/

/-- The value of the last entry under the key. -/
def last? (key : String) (entries : List (String × α)) : Option α :=
  ((entries.filter fun e => e.1 == key).getLast?).map Prod.snd

theorem last?_cons (key : String) (e : String × α) (rest : List (String × α)) :
    last? key (e :: rest) = (last? key rest).or (if e.1 = key then some e.2 else none) := by
  by_cases h : e.1 = key
  · rw [last?, List.filter_cons_of_pos (by simpa using h), List.getLast?_cons, if_pos h, last?]
    cases (rest.filter fun e => e.1 == key).getLast? <;> rfl
  · rw [last?, List.filter_cons_of_neg (by simpa using h), if_neg h, Option.or_none, last?]

theorem get?_foldl_insert (entries : List (String × α)) (m : StringMap α) (key : String) :
    (entries.foldl (fun m e => m.insert e.1 e.2) m).get? key =
      (last? key entries).or (m.get? key) := by
  induction entries generalizing m with
  | nil => rfl
  | cons e rest ih =>
    rw [List.foldl_cons, ih, get?_insert, last?_cons, Option.or_assoc]
    by_cases h : e.1 = key <;> simp [h]

/-- Of several entries with one key the last one is found. -/
theorem get?_ofList (entries : List (String × α)) (key : String) :
    (ofList entries).get? key = last? key entries := by
  rw [ofList, get?_foldl_insert, get?_empty, Option.or_none]

end StringMap
end StaticCalls
