import StaticCalls.Proofs.Except
import StaticCalls.Scope.Resolution

/-! Merging the scopes of documents. The merge goes through as long as no two documents enclose
references for one symbol, and what it hands on has a definition for each of its symbols. -/
namespace StaticCalls

namespace DocumentScopes

/-- The document encloses references in the body of the symbol. -/
def Populates (d : DocumentScopes) (symbol : String) : Prop := d.enclosed.getD symbol [] ≠ []

theorem populates_iff {d : DocumentScopes} {symbol : String} :
    d.Populates symbol ↔ ∃ e ∈ d.enclosed.entries, e.1 = symbol ∧ e.2 ≠ [] := by
  unfold Populates StringMap.getD
  constructor
  · intro h
    cases hget : d.enclosed.get? symbol with
    | none => simp [hget] at h
    | some references =>
      rw [hget] at h
      exact ⟨(symbol, references), StringMap.get?_eq_some_iff.mp hget, rfl, h⟩
  · rintro ⟨⟨_, references⟩, hin, rfl, hne⟩
    rw [StringMap.get?_eq_some_iff.mpr hin]
    exact hne

/-- No two of the documents enclose references in bodies of one symbol. -/
def Apart (scopes : List DocumentScopes) : Prop :=
  scopes.Pairwise fun d d' => ∀ symbol, ¬ (d.Populates symbol ∧ d'.Populates symbol)

/-- Each body belongs to some definition. -/
def Defines (d : DocumentScopes) : Prop :=
  ∀ symbol, d.enclosed.contains symbol → d.definitions.contains symbol

/-- Each body belongs to a definition under the symbol's own name. -/
structure Sound (d : DocumentScopes) : Prop where
  keyed : ∀ symbol m, d.definitions.get? symbol = some m → m.symbol = symbol
  defined : d.Defines

end DocumentScopes

namespace ScopeResolution
variable {d : DocumentScopes} {r r' : ScopeResolution} {symbol : String}

/-- Some merged document encloses references in the body of the symbol. -/
def Populated (r : ScopeResolution) (symbol : String) : Prop := r.enclosed.getD symbol [] ≠ []

theorem isPopulated_iff : r.isPopulated symbol ↔ r.Populated symbol := by
  simp [isPopulated, Populated]

theorem populated_track_iff {references : List Mention} {definition : Option Mention}
    {other : String} : (r.track symbol references definition).Populated other ↔
      if symbol = other then references ≠ [] else r.Populated other := by
  simp only [Populated, track, StringMap.getD, StringMap.get?_insert]
  split <;> rfl

/-- What adding one entry comes to. Only a second body with references is refused. -/
theorem addEntry_cases (d : DocumentScopes) (r : ScopeResolution) (symbol : String)
    (references : List Mention) :
    (∃ r', r.addEntry d symbol references = .ok r' ∧
        (r' = r ∨ r' = r.track symbol references (d.definitions.get? symbol)) ∧
        ¬ (references ≠ [] ∧ r.Populated symbol) ∧
        ∀ other, r'.Populated other ↔ r.Populated other ∨ symbol = other ∧ references ≠ []) ∨
      r.addEntry d symbol references = .error (.duplicateDefinition symbol d.document) ∧
        references ≠ [] ∧ r.Populated symbol := by
  unfold addEntry
  by_cases hempty : references.isEmpty
  · have hnil : references = [] := List.isEmpty_iff.mp hempty
    subst hnil
    by_cases hcontains : r.enclosed.contains symbol
    · simp only [hempty, hcontains, if_true]
      exact .inl ⟨r, rfl, .inl rfl, by simp, by simp⟩
    · simp only [hempty, hcontains, if_true]
      refine .inl ⟨_, rfl, .inr rfl, by simp, fun other => ?_⟩
      rw [populated_track_iff]
      split
      next heq =>
        have hnone : ¬ r.Populated symbol := by
          rw [StringMap.contains, Option.not_isSome_iff_eq_none] at hcontains
          simp [Populated, StringMap.getD, hcontains]
        simp [← heq, hnone]
      next => simp
  · have hne : references ≠ [] := fun h => hempty (List.isEmpty_iff.mpr h)
    by_cases hpopulated : r.isPopulated symbol
    · simp only [hempty, hpopulated, if_true]
      exact .inr ⟨rfl, hne, isPopulated_iff.mp hpopulated⟩
    · simp only [hempty, hpopulated]
      rw [isPopulated_iff] at hpopulated
      refine .inl ⟨_, rfl, .inr rfl, fun h => hpopulated h.2, fun other => ?_⟩
      rw [populated_track_iff]
      split
      next heq => simp [heq, hne]
      next hneq => simp [hneq]

def addEntries (d : DocumentScopes) (r : ScopeResolution) (entries : List (String × List Mention)) :
    Except GraphError ScopeResolution :=
  entries.foldlM (fun r e => r.addEntry d e.1 e.2) r

/-- Entries are taken up to the first one, in the order of the keys, that is refused. -/
theorem addEntries_cases (d : DocumentScopes) (r : ScopeResolution)
    {entries : List (String × List Mention)} (hkeys : entries.Pairwise (·.1 < ·.1)) :
    (∃ r', addEntries d r entries = .ok r' ∧
        (∀ e ∈ entries, ¬ (e.2 ≠ [] ∧ r.Populated e.1)) ∧
        ∀ symbol, r'.Populated symbol ↔
          r.Populated symbol ∨ ∃ e ∈ entries, e.1 = symbol ∧ e.2 ≠ []) ∨
      ∃ e ∈ entries, addEntries d r entries = .error (.duplicateDefinition e.1 d.document) ∧
        (e.2 ≠ [] ∧ r.Populated e.1) ∧
        ∀ e' ∈ entries, e'.1 < e.1 → ¬ (e'.2 ≠ [] ∧ r.Populated e'.1) := by
  induction entries generalizing r with
  | nil => exact .inl ⟨r, rfl, by simp, by simp⟩
  | cons e rest ih =>
    rw [List.pairwise_cons] at hkeys
    have hother : ∀ e' ∈ rest, e.1 ≠ e'.1 := by
      intro e' he' heq
      have hlt := hkeys.1 e' he'
      rw [heq] at hlt
      exact String.lt_irrefl _ hlt
    simp only [addEntries, List.foldlM_cons]
    rcases addEntry_cases d r e.1 e.2 with ⟨r₁, heq, _, hfree, hpop⟩ | ⟨heq, hrefused⟩
    · rw [heq]
      -- the keys differ, so this entry changes nothing for those after it
      have hsame : ∀ e' ∈ rest, r₁.Populated e'.1 ↔ r.Populated e'.1 := by
        intro e' he'
        simp [hpop, hother e' he']
      rcases ih r₁ hkeys.2 with ⟨r₂, heq₂, hfree₂, hpop₂⟩ | ⟨e', he', heq₂, hrefused, hfirst⟩
      · refine .inl ⟨r₂, heq₂, ?_, ?_⟩
        · rw [List.forall_mem_cons]
          refine ⟨hfree, fun e' he' h => hfree₂ e' he' ⟨h.1, (hsame e' he').mpr h.2⟩⟩
        · intro symbol
          simp only [hpop₂, hpop, List.mem_cons, or_and_right, exists_or, exists_eq_left, or_assoc]
      · rw [hsame e' he'] at hrefused
        refine .inr ⟨e', List.mem_cons_of_mem _ he', heq₂, hrefused, ?_⟩
        rw [List.forall_mem_cons]
        refine ⟨fun _ => hfree, fun e'' he'' hlt h => ?_⟩
        exact hfirst e'' he'' hlt ⟨h.1, (hsame e'' he'').mpr h.2⟩
    · rw [heq]
      refine .inr ⟨e, List.mem_cons_self, rfl, hrefused, ?_⟩
      rw [List.forall_mem_cons]
      refine ⟨fun hlt => absurd hlt (String.lt_irrefl _), fun e' he' hlt => ?_⟩
      exact absurd (String.lt_trans hlt (hkeys.1 e' he')) (String.lt_irrefl _)

/-- A document is refused for the first of its symbols that is populated already. -/
theorem addDocument_cases (r : ScopeResolution) (d : DocumentScopes) :
    (∃ r', r.addDocument d = .ok r' ∧ (∀ symbol, ¬ (d.Populates symbol ∧ r.Populated symbol)) ∧
        ∀ symbol, r'.Populated symbol ↔ r.Populated symbol ∨ d.Populates symbol) ∨
      ∃ symbol, r.addDocument d = .error (.duplicateDefinition symbol d.document) ∧
        (d.Populates symbol ∧ r.Populated symbol) ∧
        ∀ other < symbol, ¬ (d.Populates other ∧ r.Populated other) := by
  have hcases := addEntries_cases d { r with unscoped := r.unscoped + d.unscoped }
    d.enclosed.ascending
  simp only [← DocumentScopes.populates_iff] at hcases
  rcases hcases with ⟨r', heq, hfree, hpop⟩ | ⟨e, he, heq, ⟨hne, hpop⟩, hfirst⟩
  · refine .inl ⟨r', heq, ?_, hpop⟩
    rintro symbol ⟨hd, hr⟩
    obtain ⟨e, he, rfl, hne⟩ := DocumentScopes.populates_iff.mp hd
    exact hfree e he ⟨hne, hr⟩
  · refine .inr ⟨e.1, heq, ⟨DocumentScopes.populates_iff.mpr ⟨e, he, rfl, hne⟩, hpop⟩, ?_⟩
    rintro other hlt ⟨hd, hr⟩
    obtain ⟨e', he', rfl, hne'⟩ := DocumentScopes.populates_iff.mp hd
    exact hfirst e' he' hlt ⟨hne', hr⟩

/-- No symbol is populated by two documents, or by one of them and the resolution. -/
def Compatible (r : ScopeResolution) (scopes : List DocumentScopes) : Prop :=
  (∀ d ∈ scopes, ∀ symbol, ¬ (d.Populates symbol ∧ r.Populated symbol)) ∧
    DocumentScopes.Apart scopes

theorem foldlM_addDocument_cases (r : ScopeResolution) (scopes : List DocumentScopes) :
    (∃ r', scopes.foldlM addDocument r = .ok r') ∧ r.Compatible scopes ∨
      (∃ symbol document, scopes.foldlM addDocument r =
        .error (.duplicateDefinition symbol document)) ∧ ¬ r.Compatible scopes := by
  induction scopes generalizing r with
  | nil => exact .inl ⟨⟨r, rfl⟩, by simp [Compatible, DocumentScopes.Apart]⟩
  | cons d rest ih =>
    rw [List.foldlM_cons]
    rcases addDocument_cases r d with ⟨r₁, heq, hfree, hpop⟩ | ⟨symbol, heq, hrefused, _⟩
    · have hiff : r₁.Compatible rest ↔ r.Compatible (d :: rest) := by
        simp only [Compatible, DocumentScopes.Apart, List.forall_mem_cons, List.pairwise_cons, hpop]
        constructor
        · rintro ⟨hrest, hpair⟩
          refine ⟨⟨hfree, ?_⟩, ?_, hpair⟩
          · exact fun d' hd' s h => hrest d' hd' s ⟨h.1, .inl h.2⟩
          · exact fun d' hd' s h => hrest d' hd' s ⟨h.2, .inr h.1⟩
        · rintro ⟨⟨_, hrest⟩, hfirst, hpair⟩
          refine ⟨?_, hpair⟩
          rintro d' hd' s ⟨hpop', hr | hd⟩
          · exact hrest d' hd' s ⟨hpop', hr⟩
          · exact hfirst d' hd' s ⟨hd, hpop'⟩
      rw [heq, ← hiff]
      exact ih r₁
    · rw [heq]
      refine .inr ⟨⟨symbol, d.document, rfl⟩, ?_⟩
      intro hcompatible
      exact hcompatible.1 d List.mem_cons_self symbol hrefused

/-- The merge fails exactly when two documents populate one symbol, and only with this error. -/
theorem merge_cases (scopes : List DocumentScopes) :
    (∃ r, merge scopes = .ok r) ∧ DocumentScopes.Apart scopes ∨
      (∃ symbol document, merge scopes = .error (.duplicateDefinition symbol document)) ∧
        ¬ DocumentScopes.Apart scopes := by
  have hempty : empty.Compatible scopes ↔ DocumentScopes.Apart scopes := by
    constructor
    · exact And.right
    · intro h
      refine ⟨fun d _ symbol hpop => ?_, h⟩
      exact hpop.2 rfl
  rw [← hempty]
  exact foldlM_addDocument_cases empty scopes

/-! ### Definitions -/

/-- Each tracked symbol has a definition, which stands under the symbol's own name. -/
structure Tracks (r : ScopeResolution) : Prop where
  keyed : ∀ symbol m, r.definitions.get? symbol = some m → m.symbol = symbol
  defined : ∀ symbol, r.enclosed.contains symbol → r.definitions.contains symbol

theorem tracks_track (hr : r.Tracks) {m : Mention} (hm : m.symbol = symbol)
    (references : List Mention) : (r.track symbol references (some m)).Tracks := by
  constructor
  · intro other m' h
    simp only [track, StringMap.get?_insert] at h
    split at h
    next heq =>
      cases h
      rw [hm, heq]
    next => exact hr.keyed other m' h
  · intro other h
    simp only [track, StringMap.contains, StringMap.get?_insert] at h ⊢
    split at h
    next heq => simp [heq]
    next hne =>
      rw [if_neg hne]
      exact hr.defined other h

theorem tracks_addEntry (hd : d.Sound) (hr : r.Tracks) {references : List Mention}
    (hin : d.enclosed.contains symbol) (h : r.addEntry d symbol references = .ok r') :
    r'.Tracks := by
  rcases addEntry_cases d r symbol references with ⟨r₁, heq, hshape, _⟩ | ⟨heq, _⟩
  · rw [h] at heq
    cases heq
    rcases hshape with rfl | rfl
    · exact hr
    · obtain ⟨m, hm⟩ := Option.isSome_iff_exists.mp (hd.defined symbol hin)
      rw [hm]
      exact tracks_track hr (hd.keyed symbol m hm) references
  · rw [h] at heq
    cases heq

theorem tracks_addDocument (hd : d.Sound) (hr : r.Tracks) (h : r.addDocument d = .ok r') :
    r'.Tracks := by
  have hstart : ({ r with unscoped := r.unscoped + d.unscoped } : ScopeResolution).Tracks :=
    ⟨hr.keyed, hr.defined⟩
  refine foldlM_ok_induction ?_ hstart h
  rintro ⟨symbol, references⟩ he r₁ r₂ hr₁ hstep
  refine tracks_addEntry hd hr₁ ?_ hstep
  rw [StringMap.contains, StringMap.get?_eq_some_iff.mpr he]
  rfl

theorem tracks_merge {scopes : List DocumentScopes} (hscopes : ∀ d ∈ scopes, d.Sound)
    (h : merge scopes = .ok r) : r.Tracks := by
  have hempty : empty.Tracks := ⟨by rintro symbol m ⟨⟩, by rintro symbol ⟨⟩⟩
  refine foldlM_ok_induction ?_ hempty h
  intro d hd r₁ r₂ hr₁ hstep
  exact tracks_addDocument (hscopes d hd) hr₁ hstep

end ScopeResolution
end StaticCalls
