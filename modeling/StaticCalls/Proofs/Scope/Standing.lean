import StaticCalls.Proofs.Scope.Conservation

/-! Which body stands for a symbol once the scopes are merged: the one with references if there is
one, and the first one otherwise. It depends on the bodies of that symbol alone, and on their order
only where none of them has references (`holds_merge`, `standing_eq_of_perm`). -/
namespace StaticCalls
open scoped List

/-- What a document encloses in the body of a symbol, and the definition that has this body. -/
structure OwnedCalls where
  references : List Mention
  definition : Mention

namespace OwnedCalls

def isPopulated (b : OwnedCalls) : Bool := !b.references.isEmpty

theorem isPopulated_iff {b : OwnedCalls} : b.isPopulated ↔ b.references ≠ [] := by
  simp [isPopulated]

/-- A body takes the place of none, and one with references that of any. -/
def supersede (held : Option OwnedCalls) (b : OwnedCalls) : Option OwnedCalls :=
  if held.isNone || b.isPopulated then some b else held

/-- The body that stands after all others have been offered. -/
def standing (bodies : List OwnedCalls) : Option OwnedCalls :=
  (bodies.filter isPopulated).getLast?.or bodies.head?

theorem foldl_supersede (held : Option OwnedCalls) (bodies : List OwnedCalls) :
    bodies.foldl supersede held =
      (bodies.filter isPopulated).getLast?.or (held.or bodies.head?) := by
  induction bodies generalizing held with
  | nil => cases held <;> rfl
  | cons b rest ih =>
    rw [List.foldl_cons, ih]
    by_cases hb : b.isPopulated
    · rw [supersede, hb, Bool.or_true, if_pos rfl, List.filter_cons_of_pos hb, List.getLast?_cons]
      cases (rest.filter isPopulated).getLast? <;> rfl
    · rw [List.filter_cons_of_neg hb, supersede, Bool.eq_false_iff.mpr hb]
      cases held <;> rfl

theorem foldl_supersede_none (bodies : List OwnedCalls) :
    bodies.foldl supersede none = standing bodies := by
  rw [foldl_supersede, standing, Option.none_or]

theorem length_le_one_of_pairwise {l : List OwnedCalls} (h : l.Pairwise fun _ _ => False) :
    l.length ≤ 1 := by
  match l, h with
  | [], _ => exact Nat.zero_le 1
  | [_], _ => exact Nat.le_refl 1
  | b :: b' :: _, h =>
    rw [List.pairwise_cons] at h
    exact (h.1 b' List.mem_cons_self).elim

/-- The only populated body stands, whatever stubs come before it or after it. -/
theorem standing_of_populated {bodies : List OwnedCalls} {b : OwnedCalls}
    (hone : (bodies.filter isPopulated).length ≤ 1) (hb : b ∈ bodies) (hpop : b.isPopulated) :
    standing bodies = some b := by
  have hmem : b ∈ bodies.filter isPopulated := List.mem_filter.mpr ⟨hb, hpop⟩
  rw [standing]
  match hfilter : bodies.filter isPopulated, hone with
  | [], _ => rw [hfilter] at hmem; cases hmem
  | [_], _ => rw [hfilter, List.mem_singleton] at hmem; rw [hmem]; rfl

theorem standing_of_unpopulated {bodies : List OwnedCalls} (h : ∀ b ∈ bodies, ¬ b.isPopulated) :
    standing bodies = bodies.head? := by
  rw [standing, List.filter_eq_nil_iff.mpr h]
  rfl

/-- With one populated body at most, and with one if there are several bodies, their order does not
matter. -/
theorem standing_eq_of_perm {bodies bodies' : List OwnedCalls} (h : bodies ~ bodies')
    (hone : (bodies.filter isPopulated).length ≤ 1)
    (hpopulated : bodies.length ≤ 1 ∨ ∃ b ∈ bodies, b.isPopulated) :
    standing bodies = standing bodies' := by
  rcases hpopulated with hlength | ⟨b, hb, hpop⟩
  · have hsame : bodies = bodies' := by
      match bodies, hlength with
      | [], _ => exact (List.nil_perm.mp h).symm
      | [_], _ => exact List.singleton_perm.mp h
    rw [hsame]
  · have hone' : (bodies'.filter isPopulated).length ≤ 1 := (h.filter isPopulated).length_eq ▸ hone
    rw [standing_of_populated hone hb hpop, standing_of_populated hone' (h.subset hb) hpop]

end OwnedCalls
open OwnedCalls (supersede standing)

namespace DocumentScopes

/-- The body of a symbol in the document. -/
def owned? (d : DocumentScopes) (symbol : String) : Option OwnedCalls :=
  (d.enclosed.get? symbol).bind fun references =>
    (d.definitions.get? symbol).map fun definition => ⟨references, definition⟩

variable {d : DocumentScopes} {symbol : String}

theorem Defines.isSome_owned? (hd : d.Defines) :
    (d.owned? symbol).isSome = d.enclosed.contains symbol := by
  rw [StringMap.contains]
  cases henclosed : d.enclosed.get? symbol with
  | none => rw [owned?, henclosed]; rfl
  | some references =>
    obtain ⟨definition, hdef⟩ := Option.isSome_iff_exists.mp
      (hd symbol (by rw [StringMap.contains, henclosed]; rfl))
    rw [owned?, henclosed, hdef]
    rfl

theorem Defines.populates_iff_owned? (hd : d.Defines) :
    d.Populates symbol ↔ ∃ b, d.owned? symbol = some b ∧ b.isPopulated := by
  simp only [Populates, OwnedCalls.isPopulated_iff, StringMap.getD, owned?]
  cases henclosed : d.enclosed.get? symbol with
  | none => simp
  | some references =>
    obtain ⟨definition, hdef⟩ := Option.isSome_iff_exists.mp
      (hd symbol (by rw [StringMap.contains, henclosed]; rfl))
    simp [hdef]

theorem populates_of_owned? {b : OwnedCalls} (h : d.owned? symbol = some b)
    (hpop : b.isPopulated) : d.Populates symbol := by
  obtain ⟨references, henclosed, hb⟩ := Option.bind_eq_some_iff.mp h
  obtain ⟨_, _, rfl⟩ := Option.map_eq_some_iff.mp hb
  rw [Populates, StringMap.getD, henclosed]
  exact OwnedCalls.isPopulated_iff.mp hpop

theorem Apart.length_populated_le_one {scopes : List DocumentScopes} (h : Apart scopes)
    (symbol : String) :
    ((scopes.filterMap fun d => d.owned? symbol).filter OwnedCalls.isPopulated).length ≤ 1 := by
  apply OwnedCalls.length_le_one_of_pairwise
  rw [List.pairwise_filter, List.pairwise_filterMap]
  refine h.imp fun hne b hb b' hb' hpop hpop' => hne symbol ?_
  exact ⟨populates_of_owned? hb hpop, populates_of_owned? hb' hpop'⟩

/-- The entries under one key are the body of that symbol. -/
theorem Defines.filterMap_entries (hd : d.Defines) (symbol : String) :
    d.enclosed.entries.filterMap (fun e => if e.1 = symbol then d.owned? symbol else none) =
      (d.owned? symbol).toList := by
  have hfilter : d.enclosed.entries.filterMap
      (fun e => if e.1 = symbol then d.owned? symbol else none) =
        (d.enclosed.entries.filter fun e => e.1 == symbol).filterMap
          fun _ => d.owned? symbol := by
    rw [List.filterMap_filter]
    refine List.filterMap_congr fun e _ => ?_
    by_cases h : e.1 = symbol <;> simp [h]
  rw [hfilter, StringMap.filter_entries_key]
  have hsome : (d.owned? symbol).isSome = (d.enclosed.get? symbol).isSome := hd.isSome_owned?
  cases henclosed : d.enclosed.get? symbol with
  | none =>
    rw [henclosed, Option.isSome_none, Option.isSome_eq_false_iff, Option.isNone_iff_eq_none]
      at hsome
    rw [hsome]
    rfl
  | some references =>
    rw [henclosed] at hsome
    obtain ⟨b, hb⟩ := Option.isSome_iff_exists.mp hsome
    rw [hb]
    rfl

end DocumentScopes

namespace ScopeResolution
variable {d : DocumentScopes} {r r' : ScopeResolution} {symbol : String} {held : Option OwnedCalls}

/-- This body stands for the symbol. -/
structure Holds (r : ScopeResolution) (symbol : String) (held : Option OwnedCalls) : Prop where
  enclosed : r.enclosed.get? symbol = held.map OwnedCalls.references
  definition : r.definitions.get? symbol = held.map OwnedCalls.definition

theorem holds_empty (symbol : String) : empty.Holds symbol none := ⟨rfl, rfl⟩

/-- Two resolutions with the same bodies for all symbols differ at most in what is unscoped. -/
theorem eq_of_holds {held : String → Option OwnedCalls} (h : ∀ symbol, r.Holds symbol (held symbol))
    (h' : ∀ symbol, r'.Holds symbol (held symbol)) (hunscoped : r.unscoped = r'.unscoped) :
    r = r' := by
  have henclosed : r.enclosed = r'.enclosed :=
    StringMap.ext_get? fun symbol => (h symbol).enclosed.trans (h' symbol).enclosed.symm
  have hdefinitions : r.definitions = r'.definitions :=
    StringMap.ext_get? fun symbol => (h symbol).definition.trans (h' symbol).definition.symm
  cases r
  cases r'
  simp_all only

theorem holds_addEntry {references : List Mention} {key : String} {b : OwnedCalls}
    (hb : d.definitions.get? key = some b.definition) (hreferences : references = b.references)
    (h : r.addEntry d key references = .ok r') (hr : r.Holds symbol held) :
    r'.Holds symbol (if key = symbol then supersede held b else held) := by
  subst hreferences
  have hcontains : r.enclosed.contains symbol = held.isSome := by
    rw [StringMap.contains, hr.enclosed, Option.isSome_map]
  rcases addEntry_eq_ok h with ⟨hnil, hin, rfl⟩ | ⟨hnone, hfirst, rfl⟩
  · split
    next heq =>
      subst heq
      rw [hcontains] at hin
      have hempty : b.isPopulated = false := by rw [OwnedCalls.isPopulated, hnil]; rfl
      rw [supersede, hempty, Bool.or_false, Option.isNone_eq_false_iff.mpr hin]
      exact hr
    next => exact hr
  · rw [hb]
    split
    next heq =>
      subst heq
      have hwins : (held.isNone || b.isPopulated) = true := by
        rw [Bool.or_eq_true, OwnedCalls.isPopulated_iff]
        by_cases hempty : b.references = []
        · have hget := hfirst hempty
          rw [hr.enclosed, Option.map_eq_none_iff] at hget
          exact .inl (Option.isNone_iff_eq_none.mpr hget)
        · exact .inr hempty
      rw [supersede, if_pos hwins]
      exact ⟨by rw [track, StringMap.get?_insert, if_pos rfl]; rfl,
        by simp only [track, StringMap.get?_insert, if_true, Option.map_some]⟩
    next hne =>
      exact ⟨by rw [track, StringMap.get?_insert, if_neg hne, hr.enclosed],
        by simp only [track, StringMap.get?_insert, if_neg hne, hr.definition]⟩

theorem holds_addDocument (hd : d.Defines) (h : r.addDocument d = .ok r')
    (hr : r.Holds symbol held) :
    r'.Holds symbol ((d.owned? symbol).toList.foldl supersede held) := by
  have hstart : ({ r with unscoped := r.unscoped + d.unscoped } : ScopeResolution).Holds
      symbol held := ⟨hr.enclosed, hr.definition⟩
  have hentries : ∀ e ∈ d.enclosed.entries, ∃ b : OwnedCalls, d.owned? e.1 = some b ∧
      e.2 = b.references ∧ d.definitions.get? e.1 = some b.definition := by
    intro e he
    have hget := StringMap.get?_eq_some_iff.mpr he
    obtain ⟨definition, hdef⟩ := Option.isSome_iff_exists.mp
      (hd e.1 (by rw [StringMap.contains, hget]; rfl))
    exact ⟨⟨e.2, definition⟩, by rw [DocumentScopes.owned?, hget, hdef]; rfl, rfl, hdef⟩
  rw [← hd.filterMap_entries symbol]
  -- along the entries of the document, of which only those of the symbol matter
  refine foldlM_ok_chain (R := fun entries r r' => (∀ e ∈ entries, e ∈ d.enclosed.entries) →
    ∀ held, r.Holds symbol held → r'.Holds symbol ((entries.filterMap fun e =>
      if e.1 = symbol then d.owned? symbol else none).foldl supersede held)) ?_ ?_ h
    (fun _ => id) held hstart
  · intro r _ held hr
    exact hr
  · intro e rest r₁ r₂ r₃ hstep hrest hin held hr
    rw [List.forall_mem_cons] at hin
    obtain ⟨b, howned, hreferences, hdef⟩ := hentries e hin.1
    have hnext := hrest hin.2 _ (holds_addEntry hdef hreferences hstep hr)
    by_cases heq : e.1 = symbol
    · subst heq
      rw [if_pos rfl] at hnext
      simpa [howned] using hnext
    · rw [if_neg heq] at hnext
      simpa [heq] using hnext

/-- After a merge, the standing body of all documents is the one that is held. -/
theorem holds_merge {scopes : List DocumentScopes} (hscopes : ∀ d ∈ scopes, d.Defines)
    (h : merge scopes = .ok r) (symbol : String) :
    r.Holds symbol (standing (scopes.filterMap fun d => d.owned? symbol)) := by
  rw [← OwnedCalls.foldl_supersede_none]
  refine foldlM_ok_chain (R := fun scopes r r' => (∀ d ∈ scopes, d.Defines) →
    ∀ held, r.Holds symbol held → r'.Holds symbol
      ((scopes.filterMap fun d => d.owned? symbol).foldl supersede held)) ?_ ?_ h hscopes none
    (holds_empty symbol)
  · intro r _ held hr
    exact hr
  · intro d rest r₁ r₂ r₃ hstep hrest hdefines held hr
    rw [List.forall_mem_cons] at hdefines
    have hnext := hrest hdefines.2 _ (holds_addDocument hdefines.1 hstep hr)
    cases howned : d.owned? symbol with
    | none => simpa [howned] using hnext
    | some b => simpa [howned] using hnext

end ScopeResolution
end StaticCalls
