import StaticCalls.StringMap
import Mathlib.Algebra.GroupWithZero.Nat
import Mathlib.Data.List.Perm.Basic

/-! The lists of a map from strings, taken together. Putting a list under a key exchanges it for the
one that was there, so that grouping a list by key loses and repeats nothing
(`flatten_values_groupBy`). -/
namespace StaticCalls.StringMap
open scoped List
variable {α β : Type}

theorem nodup_keys (m : StringMap α) : m.keys.Nodup := by
  rw [keys, List.Nodup, List.pairwise_map]
  refine m.ascending.imp ?_
  intro e e' hlt heq
  rw [heq] at hlt
  exact String.lt_irrefl _ hlt

theorem mem_values_of_get? {m : StringMap α} {key : String} {value : α}
    (h : m.get? key = some value) : value ∈ m.values :=
  List.mem_map.mpr ⟨(key, value), get?_eq_some_iff.mp h, rfl⟩

/-- The values stand in the order of their keys. -/
theorem values_eq_filterMap_get? (m : StringMap α) : m.values = m.keys.filterMap m.get? := by
  rw [values, keys, List.filterMap_map, ← List.filterMap_eq_map]
  refine List.filterMap_congr fun e he => ?_
  exact (get?_eq_some_iff.mpr he).symm

theorem entries_map (f : α → β) (m : StringMap α) :
    (m.map f).entries = m.entries.map fun e => (e.1, f e.2) := by
  show m.entries.filterMap (some ∘ fun e => (e.1, f e.2)) = _
  rw [List.filterMap_eq_map]

@[simp] theorem keys_map (f : α → β) (m : StringMap α) : (m.map f).keys = m.keys := by
  rw [keys, entries_map, List.map_map]
  rfl

@[simp] theorem values_map (f : α → β) (m : StringMap α) : (m.map f).values = m.values.map f := by
  rw [values, entries_map, values, List.map_map, List.map_map]
  rfl

@[simp] theorem contains_map (f : α → β) (m : StringMap α) (key : String) :
    (m.map f).contains key = m.contains key := by
  rw [contains, get?_map, Option.isSome_map, contains]

theorem map_insert (f : α → β) (m : StringMap α) (key : String) (value : α) :
    (m.insert key value).map f = (m.map f).insert key (f value) := by
  refine ext_get? fun key' => ?_
  rw [get?_map, get?_insert, get?_insert, get?_map]
  split <;> rfl

theorem map_ofList (f : α → β) (entries : List (String × α)) :
    (ofList entries).map f = ofList (entries.map fun e => (e.1, f e.2)) := by
  refine ext_get? fun key => ?_
  rw [get?_map, get?_ofList, get?_ofList, last?, last?, List.filter_map, List.getLast?_map,
    Option.map_map, Option.map_map]
  rfl

theorem entries_filter (p : String → α → Bool) (m : StringMap α) :
    (m.filter p).entries = m.entries.filter fun e => p e.1 e.2 := by
  rw [← List.filterMap_eq_filter]
  refine List.filterMap_congr fun e _ => ?_
  by_cases h : p e.1 e.2 <;> simp [h, Option.guard]

theorem ofList_concat (entries : List (String × α)) (e : String × α) :
    ofList (entries ++ [e]) = (ofList entries).insert e.1 e.2 := by
  rw [ofList, List.foldl_append]
  rfl

theorem contains_ofList_iff {entries : List (String × α)} {key : String} :
    (ofList entries).contains key ↔ key ∈ entries.map Prod.fst := by
  rw [contains, get?_ofList, last?, Option.isSome_map, List.getLast?_isSome]
  simp [List.filter_eq_nil_iff]

theorem find_eq_none_of_lt {key : String} {l : List (String × α)}
    (h : ∀ e ∈ l, key < e.1) : find key l = none := by
  induction l with
  | nil => rfl
  | cons e rest ih =>
    rw [List.forall_mem_cons] at h
    have hne : e.1 ≠ key := by
      intro heq
      rw [heq] at h
      exact String.lt_irrefl _ h.1
    rw [find, if_neg hne, ih h.2]

theorem filter_entries_key (m : StringMap α) (key : String) :
    m.entries.filter (fun e => e.1 == key) = ((m.get? key).map (key, ·)).toList := by
  obtain ⟨entries, hascending⟩ := m
  simp only [get?]
  induction entries with
  | nil => rfl
  | cons e rest ih =>
    obtain ⟨k, v⟩ := e
    rw [List.pairwise_cons] at hascending
    rw [find]
    by_cases h : k = key
    · subst h
      have hnone : rest.filter (fun e => e.1 == k) = [] := by
        rw [List.filter_eq_nil_iff]
        intro e he heq
        have hlt := hascending.1 e he
        rw [show e.1 = k by simpa using heq] at hlt
        exact String.lt_irrefl _ hlt
      rw [List.filter_cons_of_pos (by simp), hnone, if_pos rfl]
      rfl
    · rw [List.filter_cons_of_neg (by simpa using h), if_neg h, ih hascending.2]

theorem place_perm {key : String} (value : α) {l : List (String × α)} (h : find key l = none) :
    place key value l ~ (key, value) :: l := by
  induction l with
  | nil => exact .refl _
  | cons e rest ih =>
    obtain ⟨k, v⟩ := e
    simp only [find] at h
    split at h
    next => cases h
    next hne =>
      simp only [place, if_neg (Ne.symm hne)]
      split
      next => exact .refl _
      next => exact ((ih h).cons _).trans (.swap _ _ _)

/-- An entry under a new key comes to those that are there. -/
theorem entries_insert_perm {m : StringMap α} {key : String} (h : ¬ m.contains key) (value : α) :
    (m.insert key value).entries ~ (key, value) :: m.entries := by
  apply place_perm
  rw [contains, Option.not_isSome_iff_eq_none] at h
  exact h

/-! ### Lists under keys -/

theorem getD_append (m : StringMap (List α)) (key key' : String) (value : α) :
    (m.append key value).getD key' [] =
      m.getD key' [] ++ if key = key' then [value] else [] := by
  rw [append, getD, get?_insert]
  split
  next heq => rw [heq]; rfl
  next => rw [List.append_nil]; rfl

theorem getD_foldl_append (key : α → String) (l : List α) (m : StringMap (List α)) (k : String) :
    (l.foldl (fun m a => m.append (key a) a) m).getD k [] =
      m.getD k [] ++ l.filter fun a => key a == k := by
  induction l generalizing m with
  | nil => rw [List.foldl_nil, List.filter_nil, List.append_nil]
  | cons a rest ih =>
    rw [List.foldl_cons, ih, getD_append, List.append_assoc]
    by_cases h : key a = k <;> simp [h]

theorem flatten_place {key : String} (value : List α) {l : List (String × List α)}
    (h : l.Pairwise (·.1 < ·.1)) :
    ((place key value l).map Prod.snd).flatten ++ (find key l).getD [] ~
      value ++ (l.map Prod.snd).flatten := by
  induction l with
  | nil => simp [place, find]
  | cons e rest ih =>
    obtain ⟨k, v⟩ := e
    rw [List.pairwise_cons] at h
    simp only [place]
    split
    next hlt =>
      have hnone : find key ((k, v) :: rest) = none := by
        apply find_eq_none_of_lt
        rw [List.forall_mem_cons]
        exact ⟨hlt, fun e he => String.lt_trans hlt (h.1 e he)⟩
      rw [hnone]
      simp
    next =>
      split
      next heq =>
        subst heq
        simp only [List.map_cons, List.flatten_cons, find, if_true, Option.getD_some,
          List.append_assoc]
        exact (List.perm_append_comm).append_left _
      next hne =>
        have hfind : find key ((k, v) :: rest) = find key rest := by
          rw [find, if_neg (Ne.symm hne)]
        simp only [hfind, List.map_cons, List.flatten_cons, List.append_assoc]
        calc v ++ (((place key value rest).map Prod.snd).flatten ++ (find key rest).getD [])
            ~ v ++ (value ++ (rest.map Prod.snd).flatten) := (ih h.2).append_left v
          _ ~ value ++ (v ++ (rest.map Prod.snd).flatten) := List.perm_append_comm_assoc _ _ _

/-- Putting a list under a key exchanges it for the one that was there. -/
theorem flatten_values_insert (m : StringMap (List α)) (key : String) (value : List α) :
    (m.insert key value).values.flatten ++ m.getD key [] ~ value ++ m.values.flatten :=
  flatten_place value m.ascending

theorem get?_groupBy (key : α → String) (l : List α) (k : String) : (groupBy key l).get? k =
    if l.any (fun a => key a == k) then some (l.filter fun a => key a == k) else none := by
  induction l with
  | nil => rfl
  | cons a rest ih =>
    have hcons : groupBy key (a :: rest) =
        (groupBy key rest).insert (key a) (a :: (groupBy key rest).getD (key a) []) := rfl
    rw [hcons, get?_insert]
    by_cases h : key a = k
    · subst h
      rw [getD, ih]
      by_cases hany : rest.any fun b => key b == key a
      · simp [hany]
      · have hnone : rest.filter (fun b => key b == key a) = [] := by simpa using hany
        simp [hany, hnone]
    · simp [h, ih]

/-- A key has a group exactly when the group is not empty. -/
theorem get?_groupBy_eq_some_iff {key : α → String} {l group : List α} {k : String} :
    (groupBy key l).get? k = some group ↔
      group ≠ [] ∧ group = l.filter fun a => key a == k := by
  rw [get?_groupBy]
  split
  next hsome =>
    rw [Option.some_inj, eq_comm, iff_and_self]
    rintro rfl
    simpa [List.filter_eq_nil_iff] using hsome
  next hnone =>
    refine ⟨nofun, fun ⟨hne, hgroup⟩ => absurd ?_ hne⟩
    rw [hgroup, List.filter_eq_nil_iff]
    simpa using hnone

theorem getD_groupBy (key : α → String) (l : List α) (k : String) :
    (groupBy key l).getD k [] = l.filter fun a => key a == k := by
  rw [getD, get?_groupBy]
  split
  next => rfl
  next hnone =>
    rw [Option.getD_none, eq_comm, List.filter_eq_nil_iff]
    simpa using hnone

/-- A histogram does not depend on the order. -/
theorem histogram_eq_of_perm {l l' : List String} (h : l ~ l') : histogram l = histogram l' := by
  refine ext_get? fun key => ?_
  rw [histogram, histogram, get?_map, get?_map, get?_groupBy, get?_groupBy, h.any_eq]
  split
  next => exact congrArg some (h.filter _).length_eq
  next => rfl

/-- What does not occur is not listed. -/
theorem get?_histogram (l : List String) (key : String) :
    (histogram l).get? key = if l.count key = 0 then none else some (l.count key) := by
  rw [histogram, get?_map, get?_groupBy]
  by_cases hmem : key ∈ l
  · simp [hmem, ← List.countP_eq_length_filter, List.count]
  · simp [hmem, List.count_eq_zero_of_not_mem hmem]

theorem getD_histogram (l : List String) (key : String) :
    (histogram l).getD key 0 = (l.filter fun s => s == key).length := by
  have hgroup : (groupBy id l).getD key [] = l.filter fun s => s == key := getD_groupBy id l key
  rw [histogram, getD, get?_map, ← hgroup, getD]
  cases (groupBy id l).get? key <;> rfl

/-- One more occurrence of a string adds one to its count. -/
theorem histogram_concat (l : List String) (s : String) :
    histogram (l ++ [s]) = (histogram l).insert s ((histogram l).getD s 0 + 1) := by
  refine ext_get? fun key => ?_
  rw [get?_insert, getD_histogram, histogram, histogram, get?_map, get?_map, get?_groupBy,
    get?_groupBy]
  by_cases h : s = key
  · subst h
    simp
  · simp [h]

/-- Grouping loses nothing and repeats nothing. -/
theorem flatten_values_groupBy (key : α → String) (l : List α) :
    (groupBy key l).values.flatten ~ l := by
  induction l with
  | nil => exact .refl _
  | cons a rest ih =>
    have hinsert := flatten_values_insert (groupBy key rest) (key a)
      (a :: (groupBy key rest).getD (key a) [])
    have hexchange : (groupBy key (a :: rest)).values.flatten ~
        a :: (groupBy key rest).values.flatten := by
      rw [← List.perm_append_right_iff ((groupBy key rest).getD (key a) [])]
      exact hinsert.trans (List.perm_append_comm.cons a)
    exact hexchange.trans (ih.cons a)

/-! ### Numbers under keys -/

/-- Putting a number under a key exchanges it for the one that was there. -/
theorem sum_values_insert (m : StringMap Nat) (key : String) (value : Nat) :
    (m.insert key value).values.sum + m.getD key 0 = value + m.values.sum := by
  -- a number as the length of a list
  have hlength (m : StringMap Nat) :
      (m.map fun n => List.replicate n ()).values.flatten.length = m.values.sum := by
    rw [values_map, List.length_flatten, List.map_map]
    simp [Function.comp_def]
  have hperm := (flatten_values_insert (m.map fun n => List.replicate n ()) key
    (List.replicate value ())).length_eq
  have hget : ((m.map fun n => List.replicate n ()).getD key []).length = m.getD key 0 := by
    rw [getD, get?_map, getD]
    cases m.get? key <;> simp
  rw [← map_insert, List.length_append, List.length_append, hlength, hlength, hget,
    List.length_replicate] at hperm
  exact hperm

theorem sum_values_add (m n : StringMap Nat) :
    (m.add n).values.sum = m.values.sum + n.values.sum := by
  show (n.entries.foldl (fun sum e => sum.insert e.1 (sum.getD e.1 0 + e.2)) m).values.sum =
    m.values.sum + (n.entries.map Prod.snd).sum
  generalize n.entries = entries
  induction entries generalizing m with
  | nil => rfl
  | cons e rest ih =>
    have hinsert := m.sum_values_insert e.1 (m.getD e.1 0 + e.2)
    rw [List.foldl_cons, ih, List.map_cons, List.sum_cons]
    omega

theorem sum_values_histogram (l : List String) : (histogram l).values.sum = l.length := by
  rw [histogram, values_map, ← List.length_flatten, (flatten_values_groupBy id l).length_eq]

/-- What stands under some of the keys, where each element tells the key that it stands under. -/
theorem flatten_values_filter {key : α → String} {m : StringMap (List α)}
    (hkey : ∀ k, ∀ a ∈ m.getD k [], key a = k) (p : String → Bool) :
    (m.filter fun k _ => p k).values.flatten = m.values.flatten.filter fun a => p (key a) := by
  have hentry : ∀ e ∈ m.entries, ∀ a ∈ e.2, key a = e.1 := by
    intro e he a ha
    apply hkey
    rw [getD, get?_eq_some_iff.mpr he]
    exact ha
  rw [values, entries_filter, values]
  generalize m.entries = entries at hentry
  induction entries with
  | nil => rfl
  | cons e rest ih =>
    rw [List.forall_mem_cons] at hentry
    rw [List.map_cons, List.flatten_cons, List.filter_append, ← ih hentry.2]
    by_cases h : p e.1
    · have hall : e.2.filter (fun a => p (key a)) = e.2 :=
        List.filter_eq_self.mpr fun a ha => by rw [hentry.1 a ha]; exact h
      simp only [List.filter_cons, h, if_true, hall, List.map_cons, List.flatten_cons]
    · have hnone : e.2.filter (fun a => p (key a)) = [] :=
        List.filter_eq_nil_iff.mpr fun a ha => by rw [hentry.1 a ha]; exact h
      simp only [List.filter_cons, h, if_false, hnone, List.nil_append, Bool.false_eq_true]

end StaticCalls.StringMap
