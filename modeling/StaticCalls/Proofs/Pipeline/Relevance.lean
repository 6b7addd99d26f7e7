import StaticCalls.Proofs.Extraction.Verdicts
import StaticCalls.Proofs.Pipeline.Reduction

/-! What a run does not look at. Symbol tables, roles other than that of a definition, the spans of
occurrences that are no definitions, and occurrences that are left out by the extraction do not get
as far as the scopes, so that none of them shows in a forest or in its counters (`run_of_varies`). -/
namespace StaticCalls

namespace Verdict

theorem isReference_of_suffix?_eq_none (verdict : Verdict) (h : verdict.suffix? = none) :
    verdict.isReference = false := by
  cases verdict <;> first | rfl | cases h

theorem isDefinition_of_suffix?_eq_none (verdict : Verdict) (h : verdict.suffix? = none) :
    verdict.isDefinition = false := by
  cases verdict <;> first | rfl | cases h

end Verdict

namespace Occurrence

/-- The extraction leaves the occurrence out, for its symbol or because of the policy. -/
inductive IsIdle (policy : ReferencePolicy) (o : Occurrence) : Prop where
  | empty (h : o.symbol = "")
  | isLocal (h : ParsedSymbol.isLocal o.symbol)
  | unparseable {e : SymbolError} (h : ParsedSymbol.parse o.symbol = .error e)
  | noMethod {suffix : Suffix} (hpolicy : policy = .methods) (hscoped : ¬ o.isScopedDefinition)
      (hsuffix : Suffix.ofSymbol o.symbol = .ok suffix) (hmethod : suffix ≠ .method)

/-- The occurrences differ at most in roles other than that of a definition, and in the spans of
what is no definition. -/
structure Matches (o o' : Occurrence) : Prop where
  symbol : o.symbol = o'.symbol
  range : o.range = o'.range
  isDefinition : o.roles.isDefinition = o'.roles.isDefinition
  enclosingRange : o.roles.isDefinition → o.enclosingRange = o'.enclosingRange

/-- The lists differ at most in such details and in idle occurrences. -/
inductive Varies (policy : ReferencePolicy) : List Occurrence → List Occurrence → Prop where
  | nil : Varies policy [] []
  | both {o o' l l'} (h : Matches o o') (hrest : Varies policy l l') :
      Varies policy (o :: l) (o' :: l')
  | more {o' l l'} (h : IsIdle policy o') (hrest : Varies policy l l') : Varies policy l (o' :: l')
  | fewer {o l l'} (h : IsIdle policy o) (hrest : Varies policy l l') : Varies policy (o :: l) l'

variable {policy : ReferencePolicy} {o o' : Occurrence} {l l' : List Occurrence}

theorem Matches.isScopedDefinition_eq (h : Matches o o') :
    o.isScopedDefinition = o'.isScopedDefinition := by
  rw [isScopedDefinition, isScopedDefinition, ← h.isDefinition]
  by_cases hdef : o.roles.isDefinition
  · rw [h.enclosingRange hdef]
  · simp [hdef]

theorem Matches.verdict_eq (h : Matches o o') (policy : ReferencePolicy) :
    Verdict.ofOccurrence policy o = Verdict.ofOccurrence policy o' := by
  rw [Verdict.ofOccurrence, Verdict.ofOccurrence, h.symbol, h.isScopedDefinition_eq]

theorem IsIdle.suffix?_eq_none (h : IsIdle policy o) :
    (Verdict.ofOccurrence policy o).suffix? = none := by
  unfold Verdict.ofOccurrence
  cases h with
  | empty h => simp [h, Verdict.suffix?]
  | isLocal h => simp [h, Verdict.suffix?]
  | unparseable h =>
    rw [Suffix.ofSymbol_of_parse_error h]
    split <;> rfl
  | @noMethod suffix hpolicy hscoped hsuffix hmethod =>
    have hrejects : policy.accepts suffix = false := by
      rw [hpolicy]
      exact beq_eq_false_iff_ne.mpr hmethod
    simp only [hsuffix, hscoped, hrejects]
    split <;> rfl

/-- A view of the occurrences that pass a test is the same, where both only regard what matters. -/
theorem Varies.map_filter_eq {α : Type} {test : Verdict → Bool} {view : Occurrence → α}
    (hidle : ∀ verdict, verdict.suffix? = none → test verdict = false)
    (hview : ∀ o o', Matches o o' → test (Verdict.ofOccurrence policy o) → view o = view o')
    (h : Varies policy l l') :
    (l.filter fun o => test (Verdict.ofOccurrence policy o)).map view =
      (l'.filter fun o => test (Verdict.ofOccurrence policy o)).map view := by
  induction h with
  | nil => rfl
  | @both o o' _ _ hmatches _ ih =>
    rw [List.filter_cons, List.filter_cons, ← hmatches.verdict_eq policy]
    split
    next htest => rw [List.map_cons, List.map_cons, ih, hview _ _ hmatches htest]
    next => exact ih
  | more h _ ih => rw [List.filter_cons, hidle _ h.suffix?_eq_none, ih]; rfl
  | fewer h _ ih => rw [List.filter_cons, hidle _ h.suffix?_eq_none, ← ih]; rfl

end Occurrence

namespace Document

/-- The documents have one path, and their occurrences differ in nothing that matters. Their symbol
tables are not compared. -/
structure Varies (policy : ReferencePolicy) (d d' : Document) : Prop where
  relativePath : d.relativePath = d'.relativePath
  occurrences : Occurrence.Varies policy d.occurrences d'.occurrences

variable {policy : ReferencePolicy} {d d' : Document}

theorem select_eq_map (d : Document) (policy : ReferencePolicy) (test : Verdict → Bool) :
    select test (d.classified policy) =
      (d.occurrences.filter fun o => test (Verdict.ofOccurrence policy o)).map
        fun o => ⟨d.relativePath, o⟩ := by
  rw [select_classified, mentions, List.filter_map]
  rfl

theorem Varies.map_select_eq {α : Type} {test : Verdict → Bool} {view : Mention → α}
    (hidle : ∀ verdict, verdict.suffix? = none → test verdict = false)
    (hview : ∀ path o o', Occurrence.Matches o o' → test (Verdict.ofOccurrence policy o) →
      view ⟨path, o⟩ = view ⟨path, o'⟩)
    (h : d.Varies policy d') :
    (select test (d.classified policy)).map view = (select test (d'.classified policy)).map view := by
  rw [select_eq_map, select_eq_map, List.map_map, List.map_map, ← h.relativePath]
  exact h.occurrences.map_filter_eq hidle (hview d.relativePath)

theorem Varies.references_eq (h : d.Varies policy d') :
    (d.partition policy).references.map Mention.asReference =
      (d'.partition policy).references.map Mention.asReference := by
  refine h.map_select_eq Verdict.isReference_of_suffix?_eq_none fun path o o' hmatches _ => ?_
  rw [Mention.asReference, Mention.asReference, Mention.symbol, hmatches.symbol, Mention.range,
    hmatches.range]

theorem Varies.definitions_eq (h : d.Varies policy d') :
    (d.partition policy).definitions.map Mention.asDefinition =
      (d'.partition policy).definitions.map Mention.asDefinition := by
  rw [partition, partition, StringMap.map_ofList, StringMap.map_ofList, List.map_map, List.map_map]
  congr 1
  refine h.map_select_eq Verdict.isDefinition_of_suffix?_eq_none fun path o o' hmatches hdef => ?_
  have hscoped := (Verdict.isDefinition_ofOccurrence_iff.mp hdef).2
  rw [Occurrence.isScopedDefinition, Bool.and_eq_true] at hscoped
  -- the bodies are the same where the occurrences are definitions, and only these are kept
  have hbody := hmatches.enclosingRange hscoped.1
  simp only [Function.comp_apply, Mention.asDefinition, Mention.symbol, Mention.range,
    Mention.body?, hmatches.symbol, hmatches.range, hbody]

theorem Varies.reduced_eq (h : d.Varies policy d') :
    (d.partition policy).reduced = (d'.partition policy).reduced :=
  Partition.reduced_eq h.relativePath h.definitions_eq (by
    rw [Partition.references_reduced, Partition.references_reduced, h.references_eq])

end Document

namespace Index

/-- The indexes have the same sequence of paths, and their documents differ in nothing that matters
to the call graph under the policy. -/
def Varies (policy : ReferencePolicy) (index index' : Index) : Prop :=
  List.Forall₂ (Document.Varies policy) index.documents index'.documents

theorem Varies.reduced_eq {policy : ReferencePolicy} {index index' : Index}
    (h : index.Varies policy index') : index.reduced policy = index'.reduced policy :=
  reduced_eq_of_forall₂ (h.imp fun _ _ => Document.Varies.reduced_eq)

end Index

namespace Pipeline

/-- Indexes that differ in nothing that matters give the same forest and counters of the graph, or
the same error. -/
theorem run_of_varies (config : Config) {index index' : Index}
    (h : index.Varies config.analysis.referencePolicy index') :
    Alike SameGraphCounters (run config.analysis.referencePolicy index).result
      (run config.analysis.referencePolicy index').result :=
  alike_of_reduced h.reduced_eq fun _ _ hcounters _ _ => hcounters

/-- A function that calls another one and the library. -/
def plain : Index :=
  ⟨[Sample.document "pkg/a.go" [.function Sample.caller 0 5, .call Sample.callee 2 1,
      .call Sample.libraryCall 3 1],
    Sample.document "pkg/b.go" [.function Sample.callee 0 2, .call "local 7" 1 1]]⟩

/-- The same with other roles and tables, a span for a call, and occurrences that are idle. -/
def laden : Index :=
  let place : SourceRange := .ofCoordinates 2 0 2 9
  ⟨[{ relativePath := "pkg/a.go"
      occurrences := [.definition "" place (some place),
        { symbol := Sample.caller, roles := .definition ∪ .test, range := .ofCoordinates 0 5 0 6,
          enclosingRange := some (.ofCoordinates 0 0 5 1) },
        .reference "no symbol" place,
        { symbol := Sample.callee, roles := .importing, range := .ofCoordinates 2 1 2 2,
          enclosingRange := some place },
        .reference "scip-go gomod std v1.22 fmt/Stringer#" place,
        .reference Sample.libraryCall (.ofCoordinates 3 1 3 2)] },
    Sample.document "pkg/b.go" [.function Sample.callee 0 2]]⟩

theorem plain_varies_laden : plain.Varies .methods laden := by
  refine .cons ⟨rfl, ?_⟩ (.cons ⟨rfl, ?_⟩ .nil)
  · refine .more (.empty rfl) (.both ⟨rfl, rfl, by decide, fun _ => rfl⟩ ?_)
    have hunparseable : ∃ e, ParsedSymbol.parse "no symbol" = .error e := ⟨_, rfl⟩
    obtain ⟨e, he⟩ := hunparseable
    refine .more (.unparseable he) (.both ⟨rfl, rfl, by decide, fun h => ?_⟩ ?_)
    · exact absurd h (by decide)
    have hsuffix : Suffix.ofSymbol "scip-go gomod std v1.22 fmt/Stringer#" = .ok .type := by
      decide +kernel
    refine .more (.noMethod rfl (by decide) hsuffix (by decide)) (.both ⟨rfl, rfl, rfl, ?_⟩ .nil)
    exact fun _ => rfl
  · exact .both ⟨rfl, rfl, rfl, fun _ => rfl⟩ (.fewer (.isLocal (by decide +kernel)) .nil)

theorem plain_run_of_varies : plain.Varies ({} : Config).analysis.referencePolicy laden ∧
    (∃ result, (run ({} : Config).analysis.referencePolicy plain).result = .ok result) ∧
    Alike SameGraphCounters (run ({} : Config).analysis.referencePolicy plain).result
      (run ({} : Config).analysis.referencePolicy laden).result := by
  have hrest : ∀ d ∈ plain.documents.tail, (d.partition .methods).references = [] := by
    decide +kernel
  exact ⟨plain_varies_laden, exists_result_of_tail hrest, run_of_varies {} plain_varies_laden⟩

end Pipeline
end StaticCalls
