import StaticCalls.Proofs.Scope.Standing

/-! What a merge of scopes comes to, told from the documents alone: which body each symbol is left
with, or which repetition of a body with references is reported (`merge_settles`). -/
namespace StaticCalls
open DocumentScopes (Apart)
open OwnedCalls (standing)

namespace DocumentScopes

/-- The document populates the symbol after one of the documents `before` it. -/
def Repeats (before : List DocumentScopes) (d : DocumentScopes) (symbol : String) : Prop :=
  d.Populates symbol ∧ ∃ d' ∈ before, d'.Populates symbol

/-- In the order of the documents, and of the symbols of one document, nothing is repeated before
this symbol in the document of this name. -/
def FirstRepetition (scopes : List DocumentScopes) (symbol document : String) : Prop :=
  ∃ before d after, scopes = before ++ d :: after ∧ d.document = document ∧ Apart before ∧
    d.Repeats before symbol ∧ ∀ other < symbol, ¬ d.Repeats before other

theorem head?_filterMap_owned? {scopes : List DocumentScopes} (hdefines : ∀ d ∈ scopes, d.Defines)
    {d : DocumentScopes} {symbol : String}
    (h : scopes.find? (fun d => d.enclosed.contains symbol) = some d) :
    (scopes.filterMap fun d => d.owned? symbol).head? = d.owned? symbol := by
  obtain ⟨hd, before, after, rfl, hbefore⟩ := List.find?_eq_some_iff_append.mp h
  have hnone : before.filterMap (fun d => d.owned? symbol) = [] := by
    rw [List.filterMap_eq_nil_iff]
    intro d' hd'
    rw [← Option.not_isSome_iff_eq_none,
      (hdefines d' (List.mem_append_left _ hd')).isSome_owned?]
    simpa using hbefore d' hd'
  have hsome : (d.owned? symbol).isSome = d.enclosed.contains symbol :=
    (hdefines d (List.mem_append_right _ List.mem_cons_self)).isSome_owned?
  rw [hd] at hsome
  obtain ⟨b, hb⟩ := Option.isSome_iff_exists.mp hsome
  rw [List.filterMap_append, hnone, List.nil_append, List.filterMap_cons, hb]
  rfl

end DocumentScopes
open DocumentScopes (FirstRepetition)

namespace ScopeResolution
variable {d : DocumentScopes} {r r' : ScopeResolution} {e : GraphError}
  {scopes : List DocumentScopes}

theorem exists_merge_iff (scopes : List DocumentScopes) :
    (∃ r, merge scopes = .ok r) ↔ Apart scopes := by
  rcases merge_cases scopes with ⟨hok, hapart⟩ | ⟨⟨_, _, hfail⟩, hnot⟩
  · exact ⟨fun _ => hapart, fun _ => hok⟩
  · refine ⟨?_, fun h => absurd h hnot⟩
    rintro ⟨r, hr⟩
    rw [hr] at hfail
    cases hfail

/-! ### Success -/

/-- Each symbol of the documents has the references of one of them and the definition of the same
one, which is the only document that populates the symbol, or the first one with a body for it. -/
structure Merged (scopes : List DocumentScopes) (r : ScopeResolution) : Prop where
  enclosed : ∀ symbol, r.enclosed.contains symbol ↔ ∃ d ∈ scopes, d.enclosed.contains symbol
  definitions : ∀ symbol,
    r.definitions.contains symbol ↔ ∃ d ∈ scopes, d.enclosed.contains symbol
  populated : ∀ d ∈ scopes, ∀ symbol, d.Populates symbol →
    r.enclosed.get? symbol = d.enclosed.get? symbol ∧
      r.definitions.get? symbol = d.definitions.get? symbol
  unpopulated : ∀ symbol, (∀ d ∈ scopes, ¬ d.Populates symbol) →
    ∀ d, scopes.find? (fun d => d.enclosed.contains symbol) = some d →
      r.enclosed.get? symbol = some [] ∧ r.definitions.get? symbol = d.definitions.get? symbol
  unscoped : r.unscoped = (scopes.map DocumentScopes.unscoped).sum

theorem Holds.eq_of_owned? {symbol : String} {b : OwnedCalls} (hr : r.Holds symbol (some b))
    (hb : d.owned? symbol = some b) :
    r.enclosed.get? symbol = d.enclosed.get? symbol ∧
      r.definitions.get? symbol = d.definitions.get? symbol := by
  obtain ⟨references, henclosed, hdefinition⟩ := Option.bind_eq_some_iff.mp hb
  obtain ⟨definition, hdef, rfl⟩ := Option.map_eq_some_iff.mp hdefinition
  exact ⟨hr.enclosed.trans henclosed.symm, hr.definition.trans hdef.symm⟩

theorem contains_merge_iff (h : merge scopes = .ok r) (symbol : String) :
    r.enclosed.contains symbol ↔ ∃ d ∈ scopes, d.enclosed.contains symbol := by
  have hempty : ¬ empty.enclosed.contains symbol := by simp [empty, StringMap.contains]
  rw [(gains_merge h).contains, or_iff_left hempty]
  simp only [List.mem_flatMap, StringMap.mem_keys_iff]

theorem merged_of_merge (hdefines : ∀ d ∈ scopes, d.Defines) (h : merge scopes = .ok r) :
    Merged scopes r := by
  have hapart : Apart scopes := (exists_merge_iff scopes).mp ⟨r, h⟩
  have hholds (symbol : String) := holds_merge hdefines h symbol
  constructor
  case enclosed => exact contains_merge_iff h
  case definitions =>
    intro symbol
    rw [← contains_merge_iff h, StringMap.contains, StringMap.contains, (hholds symbol).enclosed,
      (hholds symbol).definition, Option.isSome_map, Option.isSome_map]
  case populated =>
    intro d hd symbol hpopulates
    obtain ⟨b, hb, hpop⟩ := (hdefines d hd).populates_iff_owned?.mp hpopulates
    have hstanding : standing (scopes.filterMap fun d => d.owned? symbol) = some b :=
      OwnedCalls.standing_of_populated (hapart.length_populated_le_one symbol)
        (List.mem_filterMap.mpr ⟨d, hd, hb⟩) hpop
    exact (hstanding ▸ hholds symbol).eq_of_owned? hb
  case unpopulated =>
    intro symbol hnone d hfirst
    have hd : d ∈ scopes := List.mem_of_find?_eq_some hfirst
    have hempty : ∀ b ∈ scopes.filterMap (fun d => d.owned? symbol), ¬ b.isPopulated := by
      intro b hb hpop
      obtain ⟨d', hd', howned⟩ := List.mem_filterMap.mp hb
      exact hnone d' hd' (DocumentScopes.populates_of_owned? howned hpop)
    obtain ⟨b, hb⟩ : ∃ b, d.owned? symbol = some b := by
      rw [← Option.isSome_iff_exists, (hdefines d hd).isSome_owned?]
      exact List.find?_some (p := fun d : DocumentScopes => d.enclosed.contains symbol) hfirst
    have hstanding : standing (scopes.filterMap fun d => d.owned? symbol) = some b := by
      rw [OwnedCalls.standing_of_unpopulated hempty,
        DocumentScopes.head?_filterMap_owned? hdefines hfirst, hb]
    have hreferences : b.references = [] := by
      simpa [OwnedCalls.isPopulated] using hempty b (List.mem_filterMap.mpr ⟨d, hd, hb⟩)
    have hsame := (hstanding ▸ hholds symbol).eq_of_owned? hb
    refine ⟨?_, hsame.2⟩
    rw [(hholds symbol).enclosed, hstanding, Option.map_some, hreferences]
  case unscoped => exact (gains_merge h).unscoped

/-! ### Failure -/

theorem populated_addDocument (h : r.addDocument d = .ok r') (symbol : String) :
    r'.Populated symbol ↔ r.Populated symbol ∨ d.Populates symbol := by
  rcases addDocument_cases r d with ⟨r₁, heq, _, hpop⟩ | ⟨_, heq, _⟩
  · rw [h] at heq
    cases heq
    exact hpop symbol
  · rw [h] at heq
    cases heq

theorem populated_merge_iff (h : merge scopes = .ok r) (symbol : String) :
    r.Populated symbol ↔ ∃ d ∈ scopes, d.Populates symbol := by
  have hempty : ¬ empty.Populated symbol := fun h => h rfl
  rw [← or_iff_right (b := ∃ d ∈ scopes, d.Populates symbol) hempty]
  refine foldlM_ok_chain (R := fun scopes r r' =>
    r'.Populated symbol ↔ r.Populated symbol ∨ ∃ d ∈ scopes, d.Populates symbol) ?_ ?_ h
  · intro r
    simp
  · intro d rest r₁ r₂ r₃ hstep hrest
    rw [hrest, populated_addDocument hstep, or_assoc]
    simp

theorem firstRepetition_of_merge (h : merge scopes = .error e) :
    ∃ symbol document, e = .duplicateDefinition symbol document ∧
      FirstRepetition scopes symbol document := by
  obtain ⟨before, d, after, r, rfl, hbefore, hfail⟩ := exists_of_foldlM_error h
  have hapart : Apart before := (exists_merge_iff before).mp ⟨r, hbefore⟩
  rcases addDocument_cases r d with ⟨_, heq, _⟩ | ⟨symbol, heq, hrepeats, hfirst⟩
  · rw [hfail] at heq
    cases heq
  · rw [hfail] at heq
    cases heq
    simp only [populated_merge_iff hbefore] at hrepeats hfirst
    exact ⟨symbol, d.document, rfl, before, d, after, rfl, rfl, hapart, hrepeats, hfirst⟩

/-! ### Both -/

/-- How a merge ends, and with what. -/
structure Settles (scopes : List DocumentScopes) : Prop where
  succeeds_iff : (∃ r, merge scopes = .ok r) ↔ Apart scopes
  merged : ∀ r, merge scopes = .ok r → Merged scopes r
  fails : ∀ e, merge scopes = .error e →
    ∃ symbol document, e = .duplicateDefinition symbol document ∧
      FirstRepetition scopes symbol document

/-- Where each body belongs to a definition, a merge goes through if no symbol is populated twice.
It then keeps populated bodies rather than stubs and earlier stubs rather than later ones, and
otherwise it reports the first repetition. -/
theorem merge_settles (hdefines : ∀ d ∈ scopes, d.Defines) : Settles scopes where
  succeeds_iff := exists_merge_iff scopes
  merged _ := merged_of_merge hdefines
  fails _ := firstRepetition_of_merge

/-- A body with a reference between two stubs of its symbol, and a symbol that has only stubs. -/
def surrounded : List DocumentScopes :=
  let body (path symbol : String) : String × Mention :=
    (symbol, ⟨path, .definition symbol (.ofCoordinates 0 4 0 5) (some (.ofCoordinates 0 0 9 0))⟩)
  let document (path : String) (entries : List (String × List Mention)) (unscoped : Nat) :
      DocumentScopes :=
    ⟨path, .ofList (entries.map fun e => body path e.1), .ofList entries, unscoped⟩
  [document "first.py" [("f", []), ("g", [])] 2,
    document "second.py" [("f", [⟨"second.py", .reference "g" (.ofCoordinates 1 0 1 1)⟩])] 0,
    document "third.py" [("f", []), ("g", [])] 1]

theorem surrounded_settles : (∀ d ∈ surrounded, d.Defines) ∧ (∃ r, merge surrounded = .ok r) ∧
    Settles surrounded := by
  have hdefines : ∀ d ∈ surrounded, d.Defines := by
    have hkeys : ∀ d ∈ surrounded, ∀ symbol ∈ d.enclosed.keys, d.definitions.contains symbol := by
      decide
    exact fun d hd symbol hsymbol => hkeys d hd symbol (StringMap.mem_keys_iff.mpr hsymbol)
  exact ⟨hdefines, ⟨_, rfl⟩, merge_settles hdefines⟩

end ScopeResolution
end StaticCalls
