import StaticCalls.Proofs.Pipeline.Forest
import StaticCalls.Proofs.Scope.Narrowing

/-! The two reference policies side by side. They agree on the definitions, and the candidates of
`methods` are those of `any` that target a method. So the graph of `methods` is that of `any` with
only its calls of methods, as long as no symbol is defined in two documents and no reference
straddles the end of a body (`run_narrows`). -/
namespace StaticCalls

/-- The last descriptor of the target is a method. -/
def Mention.targetsMethod (m : Mention) : Bool := Suffix.ofSymbol m.symbol matches .ok .method

namespace Verdict
variable {o : Occurrence}

theorem isDefinition_ofOccurrence_eq (policy policy' : ReferencePolicy) (o : Occurrence) :
    (ofOccurrence policy o).isDefinition = (ofOccurrence policy' o).isDefinition := by
  rw [Bool.eq_iff_iff, isDefinition_ofOccurrence_iff, isDefinition_ofOccurrence_iff]

/-- Of the candidates of all kinds those remain that target a method. -/
theorem isReference_ofOccurrence_methods (path : String) (o : Occurrence) :
    (ofOccurrence .methods o).isReference =
      ((ofOccurrence .any o).isReference && Mention.targetsMethod ⟨path, o⟩) := by
  unfold ofOccurrence Mention.targetsMethod Mention.symbol
  split
  next => rfl
  next =>
    cases Suffix.ofSymbol o.symbol with
    | error e => rfl
    | ok suffix =>
      by_cases hscoped : o.isScopedDefinition
      · simp [isReference, hscoped]
      · cases suffix <;> simp [hscoped, ReferencePolicy.accepts, Suffix.isCallLike, isReference]

end Verdict

namespace Document
variable {d : Document} {policy policy' : ReferencePolicy}

theorem select_isDefinition_eq (d : Document) (policy policy' : ReferencePolicy) :
    select Verdict.isDefinition (d.classified policy) =
      select Verdict.isDefinition (d.classified policy') := by
  simp only [select_classified, Verdict.isDefinition_ofOccurrence_eq policy policy']

theorem scopedSymbols_eq (d : Document) (policy policy' : ReferencePolicy) :
    d.scopedSymbols policy = d.scopedSymbols policy' := by
  rw [scopedSymbols, select_isDefinition_eq d policy policy', scopedSymbols]

theorem partition_methods (d : Document) :
    d.partition .methods = (d.partition .any).narrowed Mention.targetsMethod := by
  have hreferences : select Verdict.isReference (d.classified .methods) =
      (select Verdict.isReference (d.classified .any)).filter Mention.targetsMethod := by
    rw [select_classified, select_classified, List.filter_filter]
    refine List.filter_congr fun m _ => ?_
    rw [Verdict.isReference_ofOccurrence_methods m.path, Bool.and_comm]
  simp only [partition, Partition.narrowed, select_isDefinition_eq d .methods .any, hreferences]

end Document

namespace Index
variable {index : Index}

/-- Each symbol has its scoped definitions in one document, and no candidate reference ends before
it starts or straddles the end of a body of its document. -/
structure Orderly (index : Index) : Prop where
  disjoint : index.documents.Pairwise fun d d' =>
    ∀ symbol ∈ d.scopedSymbols .any, symbol ∉ d'.scopedSymbols .any
  tidy : ∀ d ∈ index.documents, (d.partition .any).Tidy

theorem scopedSymbols_eq (index : Index) (policy policy' : ReferencePolicy) :
    index.scopedSymbols policy = index.scopedSymbols policy' := by
  simp only [scopedSymbols, Document.scopedSymbols_eq _ policy policy']

theorem tracks_eq (index : Index) (policy policy' : ReferencePolicy) :
    index.tracks policy = index.tracks policy' := by
  funext m
  rw [tracks, scopedSymbols_eq index policy policy', tracks]

namespace Orderly

theorem disjoint_methods (h : index.Orderly) : index.documents.Pairwise fun d d' =>
    ∀ symbol ∈ d.scopedSymbols .methods, symbol ∉ d'.scopedSymbols .methods := by
  simpa only [Document.scopedSymbols_eq _ .methods .any] using h.disjoint

theorem length_ownedCalls_le_one (h : index.Orderly) (symbol : String) :
    (index.ownedCalls .any symbol).length ≤ 1 := by
  apply OwnedCalls.length_le_one_of_pairwise
  rw [ownedCalls, List.pairwise_filterMap]
  refine h.disjoint.imp fun hapart b hb b' hb' => ?_
  exact hapart symbol (Document.isSome_owned?_iff.mp (Option.isSome_of_mem hb))
    (Document.isSome_owned?_iff.mp (Option.isSome_of_mem hb'))

theorem ownedCalls_methods (h : index.Orderly) (symbol : String) :
    index.ownedCalls .methods symbol =
      (index.ownedCalls .any symbol).map (OwnedCalls.narrowed Mention.targetsMethod) := by
  rw [ownedCalls, ownedCalls, List.map_filterMap]
  refine List.filterMap_congr fun d hd => ?_
  rw [d.partition_methods, Partition.owned?_narrowed (h.tidy d hd)]

theorem standing_methods (h : index.Orderly) (symbol : String) :
    OwnedCalls.standing (index.ownedCalls .methods symbol) =
      (OwnedCalls.standing (index.ownedCalls .any symbol)).map
        (OwnedCalls.narrowed Mention.targetsMethod) := by
  rw [h.ownedCalls_methods, OwnedCalls.standing_map_narrowed (h.length_ownedCalls_le_one symbol)]

end Orderly
end Index

namespace Pipeline
variable {policy : ReferencePolicy} {index : Index} {r r' : ScopeResolution} {g g' : CallGraph}
  {symbol : String}

theorem Stages.definition_eq (h : Stages policy index r g) (symbol : String) :
    (g.node? symbol).map Node.definition =
      (OwnedCalls.standing (index.ownedCalls policy symbol)).map OwnedCalls.definition := by
  have hholds := ScopeResolution.holds_ofPartitions h.merged symbol
  simp only [CallTable.node?_of_build h.keyed h.built, CallTable.node?,
    ScopeResolution.callTable, CallEdges.ofReferences, StringMap.get?_map, hholds.enclosed,
    hholds.definition]
  cases OwnedCalls.standing (index.ownedCalls policy symbol) <;> rfl

theorem Stages.callsOf_methods (horderly : index.Orderly) (h : Stages .any index r g)
    (h' : Stages .methods index r' g') (symbol : String) :
    g'.callsOf symbol = (g.callsOf symbol).filter Mention.targetsMethod := by
  rw [h.callsOf_eq, h'.callsOf_eq, horderly.standing_methods, index.tracks_eq .methods .any]
  cases OwnedCalls.standing (index.ownedCalls .any symbol) with
  | none => rfl
  | some b =>
    simp only [Option.map_some, Option.getD_some, OwnedCalls.narrowed, List.filter_filter,
      Bool.and_comm]

/-- The second graph has the nodes of the first one, with the same definitions, and keeps those of
their calls that target a method. -/
structure NarrowsTo (g g' : CallGraph) : Prop where
  nodes : g'.nodes.map Node.definition = g.nodes.map Node.definition
  calls : ∀ symbol, g'.callsOf symbol = (g.callsOf symbol).filter Mention.targetsMethod

theorem narrowsTo_methods (horderly : index.Orderly) (h : Stages .any index r g)
    (h' : Stages .methods index r' g') : NarrowsTo g g' where
  nodes := by
    refine StringMap.ext_get? fun symbol => ?_
    have hdefinition := h.definition_eq symbol
    have hdefinition' := h'.definition_eq symbol
    rw [horderly.standing_methods, Option.map_map] at hdefinition'
    rw [StringMap.get?_map, StringMap.get?_map]
    exact hdefinition'.trans hdefinition.symm
  calls := h.callsOf_methods horderly h'

namespace NarrowsTo

theorem symbols_eq (h : NarrowsTo g g') : g'.symbols = g.symbols := by
  have hkeys := congrArg StringMap.keys h.nodes
  rwa [StringMap.keys_map, StringMap.keys_map] at hkeys

theorem calls_of_calls (h : NarrowsTo g g') {caller callee : String}
    (hcalls : g'.Calls caller callee) : g.Calls caller callee := by
  obtain ⟨m, hm, rfl⟩ := hcalls
  rw [h.calls] at hm
  exact ⟨m, List.mem_of_mem_filter hm, rfl⟩

/-- Fewer calls leave more roots. -/
theorem roots_subset (h : NarrowsTo g g') (hg : g.Indexed) (hg' : g'.Indexed) :
    g.roots ⊆ g'.roots := by
  intro symbol hroot
  rw [CallGraph.mem_roots_iff hg, ← CallGraph.mem_symbols_iff] at hroot
  rw [CallGraph.mem_roots_iff hg', ← CallGraph.mem_symbols_iff, h.symbols_eq]
  refine ⟨hroot.1, ?_⟩
  rintro ⟨caller, hne, hcalls⟩
  exact hroot.2 ⟨caller, hne, h.calls_of_calls hcalls⟩

end NarrowsTo

/-- The results of one index under `any` and under `methods`, with their graphs. -/
structure Narrows (index : Index) (g g' : CallGraph) (result result' : PipelineResult) :
    Prop where
  any : (run .any index).result = .ok result
  methods : (run .methods index).result = .ok result'
  graph : (∃ r, Stages .any index r g) ∧ g.forest = .ok result.forest
  graph' : (∃ r, Stages .methods index r g') ∧ g'.forest = .ok result'.forest
  narrowsTo : NarrowsTo g g'
  roots : g.roots ⊆ g'.roots
  trees : result.forest.roots.map CallTree.symbol ⊆ result'.forest.roots.map CallTree.symbol

/-- Both policies succeed on an orderly index, with the same nodes, and `methods` finds the calls of
methods among those of `any`, in the same order. What nothing calls under `any` is called by nothing
under `methods`. -/
theorem run_narrows (h : index.Orderly) : ∃ g g' result result',
    Narrows index g g' result result' := by
  obtain ⟨result, hany⟩ := exists_result_of_scopedSymbols h.disjoint
  obtain ⟨result', hmethods⟩ := exists_result_of_scopedSymbols h.disjoint_methods
  obtain ⟨r, g, f, hstages, hf, rfl⟩ := result_of_run hany
  obtain ⟨r', g', f', hstages', hf', rfl⟩ := result_of_run hmethods
  have hnarrows := narrowsTo_methods h hstages hstages'
  have hroots : g.roots ⊆ g'.roots := hnarrows.roots_subset
    (CallTable.indexed_of_build hstages.built) (CallTable.indexed_of_build hstages'.built)
  refine ⟨g, g', _, _, hany, hmethods, ⟨⟨r, hstages⟩, hf⟩, ⟨⟨r', hstages'⟩, hf'⟩, hnarrows,
    hroots, ?_⟩
  intro symbol htree
  rw [(hstages.covers hf).roots, ← hstages.mem_roots_iff] at htree
  rw [(hstages'.covers hf').roots, ← hstages'.mem_roots_iff]
  exact hroots htree

/-- A function that calls another one and names a type, which is all that refers to the type. -/
def naming : Index :=
  let shape := "scip-go gomod example v1.0.0 `example/pkg`/Shape#"
  ⟨[Sample.document "pkg/a.go" [.function Sample.caller 0 5, .call shape 1 1,
      .call Sample.callee 2 1, .call shape 3 1],
    Sample.document "pkg/b.go" [.function Sample.callee 0 2, .function shape 4 6]]⟩

theorem orderly_naming : naming.Orderly where
  disjoint := by decide +kernel
  tidy := by
    have hwellFormed : ∀ d ∈ naming.documents, ∀ m ∈ (d.partition .any).references,
        m.range.WellFormed := by decide +kernel
    have hunstraddled : ∀ d ∈ naming.documents, ∀ m ∈ (d.partition .any).references,
        ∀ e ∈ (d.partition .any).definitions.entries, ∀ range ∈ e.2.body?,
          ¬ m.range.Straddles range := by decide +kernel
    refine fun d hd => ⟨hwellFormed d hd, fun m hm => ?_⟩
    exact Partition.forall_hasBody_iff.mpr (hunstraddled d hd m hm)

theorem naming_narrows : naming.Orderly ∧ ∃ g g' result result',
    Narrows naming g g' result result' :=
  ⟨orderly_naming, run_narrows orderly_naming⟩

end Pipeline
end StaticCalls
