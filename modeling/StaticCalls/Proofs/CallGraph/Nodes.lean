import StaticCalls.CallGraph.Build
import StaticCalls.Proofs.StringMap.Values
import StaticCalls.Proofs.Walk.Descent

/-! The nodes of a built graph. The node of an open body holds the calls that have been taken so
far, and with those that are still to take it is the node that the table tells of
(`Node.completed`). A body is left only when nothing is left to take, so that walking a table never
makes any other node, and a walk from a symbol that succeeds leaves a node for it: building fails
for want of a definition alone and otherwise gives each symbol of the table its own node. -/
namespace StaticCalls

namespace Node

/-- The node before any of its calls has been taken. -/
def opened (n : Node) : Node := ⟨n.definition, []⟩

/-- The node when the calls that are still to take have been taken as well. -/
def completed (n : Node) (pending : List Mention) : Node := ⟨n.definition, n.calls ++ pending⟩

theorem completed_nil (n : Node) : n.completed [] = n := by
  rw [completed, List.append_nil]

theorem completed_cons (n : Node) (call : Mention) (pending : List Mention) :
    n.completed (call :: pending) = (n.addCall call).completed pending := by
  rw [completed, completed, addCall, List.append_assoc]
  rfl

theorem mem_calls_completed (n : Node) (call : Mention) (pending : List Mention) :
    call ∈ (n.completed (call :: pending)).calls :=
  List.mem_append_right n.calls List.mem_cons_self

theorem completed_opened (n : Node) : n.opened.completed n.calls = n := rfl

end Node

namespace CallGraph

theorem isBuilt_iff {g : CallGraph} {symbol : String} :
    g.isBuilt symbol ↔ ∃ n, g.node? symbol = some n := by
  simp only [isBuilt, StringMap.contains, node?, Option.isSome_iff_exists]

theorem not_isBuilt_iff {g : CallGraph} {symbol : String} :
    ¬ g.isBuilt symbol ↔ g.node? symbol = none := by
  rw [isBuilt, StringMap.contains, Option.not_isSome_iff_eq_none, node?]

/-- The first node of a symbol stays. -/
theorem node?_addNode (g : CallGraph) (n : Node) (symbol : String) :
    (g.addNode n).node? symbol =
      (g.node? symbol).or (if n.symbol = symbol then some n else none) := by
  by_cases hbuilt : g.isBuilt n.symbol
  · obtain ⟨m, hm⟩ := isBuilt_iff.mp hbuilt
    rw [addNode, if_pos hbuilt]
    split
    next heq => rw [← heq, hm]; rfl
    next => rw [Option.or_none]
  · have hnone : g.node? n.symbol = none := by
      rw [isBuilt_iff] at hbuilt
      simpa [Option.eq_none_iff_forall_ne_some] using hbuilt
    rw [addNode, if_neg hbuilt]
    simp only [node?, StringMap.get?_insert] at hnone ⊢
    split
    next heq => rw [← heq, hnone]; rfl
    next => rw [Option.or_none]

end CallGraph

namespace CallTable
variable {t : CallTable} {g : CallGraph}

/-- Each definition is registered under its own symbol. -/
def Keyed (t : CallTable) : Prop :=
  ∀ symbol m, t.definitions.get? symbol = some m → m.symbol = symbol

/-- Each symbol with calls is registered. -/
def Registered (t : CallTable) : Prop :=
  ∀ symbol, t.calls.contains symbol → t.definitions.contains symbol

theorem Registered.exists_definition (h : t.Registered) {symbol : String} {calls : List Mention}
    (hcalls : t.calls.get? symbol = some calls) :
    ∃ definition, t.definitions.get? symbol = some definition := by
  apply Option.isSome_iff_exists.mp
  apply h
  rw [StringMap.contains, hcalls]
  rfl

theorem keyed_of_entries (h : ∀ e ∈ t.definitions.entries, e.2.symbol = e.1) : t.Keyed := by
  intro symbol m hm
  exact h (symbol, m) (StringMap.get?_eq_some_iff.mp hm)

theorem registered_of_entries (h : ∀ e ∈ t.calls.entries, t.definitions.contains e.1) :
    t.Registered := by
  intro symbol hs
  obtain ⟨calls, hcalls⟩ := Option.isSome_iff_exists.mp hs
  exact h (symbol, calls) (StringMap.get?_eq_some_iff.mp hcalls)

/-- The node that the table holds for a symbol. -/
def node? (t : CallTable) (symbol : String) : Option Node :=
  (t.calls.get? symbol).bind fun calls =>
    (t.definitions.get? symbol).map fun definition => ⟨definition, calls⟩

theorem node?_eq_some_iff {symbol : String} {n : Node} : t.node? symbol = some n ↔
    t.calls.get? symbol = some n.calls ∧ t.definitions.get? symbol = some n.definition := by
  cases n
  simp only [node?, Option.bind_eq_some_iff, Option.map_eq_some_iff, Node.mk.injEq]
  constructor
  · rintro ⟨_, hcalls, _, hdef, rfl, rfl⟩
    exact ⟨hcalls, hdef⟩
  · rintro ⟨hcalls, hdef⟩
    exact ⟨_, hcalls, _, hdef, rfl, rfl⟩

theorem symbol_of_node? (ht : t.Keyed) {symbol : String} {n : Node} (h : t.node? symbol = some n) :
    n.symbol = symbol :=
  ht symbol n.definition (node?_eq_some_iff.mp h).2

theorem enter_eq_some {symbol : String} {frame : Frame Node}
    (h : t.enter symbol = .ok (some frame)) :
    ∃ n, t.node? symbol = some n ∧ frame = ⟨n.opened, n.calls⟩ := by
  unfold enter at h
  split at h
  next => cases h
  next calls hcalls =>
    split at h
    next => cases h
    next definition hdef =>
      cases h
      exact ⟨⟨definition, calls⟩, node?_eq_some_iff.mpr ⟨hcalls, hdef⟩, rfl⟩

/-- What is entered is the node of the table, with all of its calls still to take. -/
theorem exists_opened_of_enter (ht : t.Keyed) {symbol : String} {frame : Frame Node}
    (h : t.enter symbol = .ok (some frame)) :
    ∃ n, n.symbol = symbol ∧ t.node? n.symbol = some n ∧ frame = ⟨n.opened, n.calls⟩ := by
  obtain ⟨n, hn, rfl⟩ := enter_eq_some h
  have hsymbol := symbol_of_node? ht hn
  rw [← hsymbol] at hn
  exact ⟨n, hsymbol, hn, rfl⟩

/-- A symbol with calls that is not registered. -/
def Lacks (t : CallTable) (symbol : String) : Prop :=
  t.calls.contains symbol ∧ t.definitions.get? symbol = none

theorem Registered.not_lacks (h : t.Registered) (symbol : String) : ¬ t.Lacks symbol := by
  rintro ⟨hcalls, hdef⟩
  have hin := h symbol hcalls
  simp [StringMap.contains, hdef] at hin

theorem enter_eq_error {symbol : String} {e : GraphError} (h : t.enter symbol = .error e) :
    e = .missingDefinition symbol ∧ t.Lacks symbol := by
  unfold enter at h
  split at h
  next => cases h
  next calls hcalls =>
    split at h
    next hdef =>
      cases h
      exact ⟨rfl, by simp [StringMap.contains, hcalls], hdef⟩
    next => cases h

/-- All nodes of the graph are nodes of the table. -/
def Covers (t : CallTable) (g : CallGraph) : Prop :=
  ∀ symbol n, g.node? symbol = some n → t.node? symbol = some n

theorem covers_addNode {n : Node} (hg : t.Covers g) (hn : t.node? n.symbol = some n) :
    t.Covers (g.addNode n) := by
  intro symbol m hm
  rw [CallGraph.node?_addNode, Option.or_eq_some_iff] at hm
  rcases hm with hold | ⟨_, hnew⟩
  · exact hg symbol m hold
  · split at hnew
    next heq =>
      cases hnew
      rw [← heq]
      exact hn
    next => cases hnew

/-- The nodes that are built stay built. -/
def Extends (g g' : CallGraph) : Prop := ∀ symbol, g.isBuilt symbol → g'.isBuilt symbol

theorem extends_addNode (g : CallGraph) (n : Node) : Extends g (g.addNode n) := by
  intro symbol h
  obtain ⟨m, hm⟩ := CallGraph.isBuilt_iff.mp h
  rw [CallGraph.isBuilt_iff]
  refine ⟨m, ?_⟩
  rw [CallGraph.node?_addNode, hm]
  rfl

theorem isBuilt_addNode (g : CallGraph) (n : Node) : (g.addNode n).isBuilt n.symbol := by
  rw [CallGraph.isBuilt_iff, CallGraph.node?_addNode, if_pos rfl]
  cases g.node? n.symbol with
  | none => exact ⟨n, rfl⟩
  | some m => exact ⟨m, rfl⟩

/-- What a walk from a node of the table leaves behind. -/
structure Expanded (t : CallTable) (g : CallGraph) (n : Node)
    (out : Walk.Outcome GraphError CallGraph Node) : Prop where
  covers : t.Covers out.store
  kept : Extends g out.store
  built : ∀ m, out.result = .ok m → m = n ∧ out.store.isBuilt n.symbol
  failed : ∀ e, out.result = .error e → ∃ symbol, e = .missingDefinition symbol ∧ t.Lacks symbol

/-- The calls that an open body holds and those it has still to take are, in this order, the calls
of its symbol in the table. Each call that is taken keeps it so, whether it is followed or not. -/
theorem expanded_of_descends (ht : t.Keyed) {n : Node} {pending : List Mention}
    {visited : List CallSite} {out : Walk.Outcome GraphError CallGraph Node}
    (h : t.builder.Descends n pending visited g out) (hg : t.Covers g)
    (hn : t.node? n.symbol = some (n.completed pending)) :
    t.Expanded g (n.completed pending) out := by
  induction h with
  | @close n visited g =>
    rw [Node.completed_nil] at hn ⊢
    refine ⟨covers_addNode hg hn, extends_addNode g n, ?_, ?_⟩
    · rintro m ⟨⟩
      exact ⟨rfl, isBuilt_addNode g n⟩
    · rintro e ⟨⟩
  | pass _ _ ih =>
    rw [Node.completed_cons] at hn ⊢
    exact ih hg hn
  | absent _ _ _ ih =>
    rw [Node.completed_cons] at hn ⊢
    exact ih hg hn
  | refuse _ henter =>
    refine ⟨hg, fun _ => id, ?_, ?_⟩
    · rintro m ⟨⟩
    · rintro e ⟨⟩
      exact ⟨_, enter_eq_error henter⟩
  | enter _ henter _ _ ihchild ihrest =>
    obtain ⟨child, _, hchild, rfl⟩ := exists_opened_of_enter ht henter
    rw [Node.completed_cons] at hn ⊢
    have hin := ihchild hg hchild
    have hout := ihrest hin.covers hn
    exact ⟨hout.covers, fun symbol hs => hout.kept symbol (hin.kept symbol hs), hout.built,
      hout.failed⟩
  | fail _ henter _ ih =>
    obtain ⟨child, _, hchild, rfl⟩ := exists_opened_of_enter ht henter
    have hin := ih hg hchild
    refine ⟨hin.covers, hin.kept, ?_, ?_⟩
    · rintro m ⟨⟩
    · rintro e ⟨⟩
      exact hin.failed _ rfl

theorem expandNew_cases (ht : t.Keyed) (hg : t.Covers g) {root : String}
    (hroot : t.calls.contains root) :
    (∃ g', t.expandNew g root = .ok g' ∧ t.Covers g' ∧ Extends g g' ∧ g'.isBuilt root) ∨
      ∃ symbol, t.expandNew g root = .error (.missingDefinition symbol) ∧ t.Lacks symbol := by
  unfold expandNew
  by_cases hbuilt : g.isBuilt root
  · rw [if_pos hbuilt]
    exact .inl ⟨g, rfl, hg, fun _ => id, hbuilt⟩
  rw [if_neg hbuilt]
  cases henter : t.enter root with
  | error e =>
    obtain ⟨rfl, hlacks⟩ := enter_eq_error henter
    rw [expand, Walk.start_of_error henter]
    exact .inr ⟨root, rfl, hlacks⟩
  | ok entered =>
    cases entered with
    | none =>
      obtain ⟨calls, hcalls⟩ := Option.isSome_iff_exists.mp hroot
      simp only [enter, hcalls] at henter
      split at henter <;> cases henter
    | some frame =>
      obtain ⟨n, hsymbol, hn, rfl⟩ := exists_opened_of_enter ht henter
      have hframe : t.builder.enter root none = .ok (some ⟨n.opened, n.calls⟩) := henter
      obtain ⟨out, hout, hstart⟩ := Walk.start_of_enter hframe [] g
      have hexpanded := expanded_of_descends ht hout hg hn
      rw [expand, hstart]
      cases hresult : out.result with
      | ok m =>
        have hroot' := (hexpanded.built m hresult).2
        rw [n.completed_opened, hsymbol] at hroot'
        exact .inl ⟨out.store, rfl, hexpanded.covers, hexpanded.kept, hroot'⟩
      | error e =>
        obtain ⟨symbol, rfl, hlacks⟩ := hexpanded.failed e hresult
        exact .inr ⟨symbol, rfl, hlacks⟩

theorem foldlM_expandNew_cases (ht : t.Keyed) {roots : List String}
    (hroots : ∀ root ∈ roots, t.calls.contains root) (hg : t.Covers g) :
    (∃ g', roots.foldlM t.expandNew g = .ok g' ∧ t.Covers g' ∧ Extends g g' ∧
        ∀ root ∈ roots, g'.isBuilt root) ∨
      ∃ symbol, roots.foldlM t.expandNew g = .error (.missingDefinition symbol) ∧
        t.Lacks symbol := by
  induction roots generalizing g with
  | nil => exact .inl ⟨g, rfl, hg, fun _ => id, by simp⟩
  | cons root rest ih =>
    rw [List.forall_mem_cons] at hroots
    rw [List.foldlM_cons]
    rcases expandNew_cases ht hg hroots.1 with ⟨g₁, heq, hcovers, hkept, hbuilt⟩ | ⟨s, heq, hlacks⟩
    · rw [heq]
      rcases ih hroots.2 hcovers with ⟨g₂, heq₂, hcovers₂, hkept₂, hbuilt₂⟩ | hfail
      · refine .inl ⟨g₂, heq₂, hcovers₂, fun s hs => hkept₂ s (hkept s hs), ?_⟩
        rw [List.forall_mem_cons]
        exact ⟨hkept₂ root hbuilt, hbuilt₂⟩
      · exact .inr hfail
    · rw [heq]
      exact .inr ⟨s, rfl, hlacks⟩

/-- Building reads every node off the table, or names a symbol that is not registered. -/
theorem build_cases (ht : t.Keyed) :
    (∃ g, t.build = .ok g ∧ t.Registered ∧ ∀ symbol, g.node? symbol = t.node? symbol) ∨
      ∃ symbol, t.build = .error (.missingDefinition symbol) ∧ t.Lacks symbol := by
  have hroots : ∀ root ∈ t.calls.keys, t.calls.contains root := fun root =>
    StringMap.mem_keys_iff.mp
  have hempty : t.Covers .empty := by
    intro symbol n hn
    cases hn
  rcases foldlM_expandNew_cases ht hroots hempty with ⟨g, heq, hcovers, _, hbuilt⟩ | hfail
  · have hnode : ∀ symbol, t.calls.contains symbol → ∃ n, g.node? symbol = some n := by
      intro symbol hs
      exact CallGraph.isBuilt_iff.mp (hbuilt symbol (StringMap.mem_keys_iff.mpr hs))
    refine .inl ⟨g, heq, ?_, ?_⟩
    · intro symbol hs
      obtain ⟨n, hn⟩ := hnode symbol hs
      have hdef := (node?_eq_some_iff.mp (hcovers symbol n hn)).2
      exact Option.isSome_iff_exists.mpr ⟨_, hdef⟩
    · intro symbol
      cases hn : t.node? symbol with
      | none =>
        apply Option.eq_none_iff_forall_ne_some.mpr
        intro m hm
        rw [hcovers symbol m hm] at hn
        cases hn
      | some n =>
        have hcalls := (node?_eq_some_iff.mp hn).1
        obtain ⟨m, hm⟩ := hnode symbol (Option.isSome_iff_exists.mpr ⟨_, hcalls⟩)
        have heq' := hcovers symbol m hm
        rw [hn] at heq'
        rw [hm, heq']
  · exact .inr hfail

theorem node?_of_build (ht : t.Keyed) (h : t.build = .ok g) (symbol : String) :
    g.node? symbol = t.node? symbol := by
  rcases build_cases ht with ⟨g', heq, _, hnode⟩ | ⟨s, heq, _⟩
  · rw [h] at heq
    cases heq
    exact hnode symbol
  · rw [h] at heq
    cases heq

/-- The nodes of the table, by symbol. -/
def nodes (t : CallTable) : StringMap Node :=
  t.calls.filterMap fun symbol calls =>
    (t.definitions.get? symbol).map fun definition => ⟨definition, calls⟩

theorem nodes_of_build (ht : t.Keyed) (h : t.build = .ok g) : g.nodes = t.nodes := by
  refine StringMap.ext_get? fun symbol => ?_
  rw [nodes, StringMap.get?_filterMap]
  exact node?_of_build ht h symbol

theorem registered_of_build (ht : t.Keyed) (h : t.build = .ok g) : t.Registered := by
  rcases build_cases ht with ⟨_, _, hreg, _⟩ | ⟨s, heq, _⟩
  · exact hreg
  · rw [h] at heq
    cases heq

theorem build_of_registered (ht : t.Keyed) (hreg : t.Registered) : ∃ g, t.build = .ok g := by
  rcases build_cases ht with ⟨g, heq, _⟩ | ⟨symbol, _, hlacks⟩
  · exact ⟨g, heq⟩
  · exact absurd hlacks (hreg.not_lacks symbol)

/-- The calls of a symbol are taken over as they stand in the table. -/
theorem calls_of_build (ht : t.Keyed) (h : t.build = .ok g) : g.nodes.map Node.calls = t.calls := by
  refine StringMap.ext_get? fun symbol => ?_
  rw [StringMap.get?_map, nodes_of_build ht h, nodes, StringMap.get?_filterMap]
  cases hcalls : t.calls.get? symbol with
  | none => rfl
  | some calls =>
    obtain ⟨definition, hdef⟩ := (registered_of_build ht h).exists_definition hcalls
    simp only [Option.bind_some, hdef, Option.map_some]

theorem symbols_of_build (ht : t.Keyed) (h : t.build = .ok g) : g.symbols = t.calls.keys := by
  rw [CallGraph.symbols, ← calls_of_build ht h, StringMap.keys_map]

/-- The walks from all symbols make the graph that has one node for each entry of the table, and
they fail where an entry has no definition. -/
structure BuildsDirectly (t : CallTable) : Prop where
  fails_iff : (∃ e, t.build = .error e) ↔ ∃ symbol, t.Lacks symbol
  names : ∀ e, t.build = .error e → ∃ symbol, e = .missingDefinition symbol ∧ t.Lacks symbol
  symbols : ∀ g, t.build = .ok g → g.symbols = t.calls.keys
  nodes : ∀ g, t.build = .ok g → ∀ symbol calls, t.calls.get? symbol = some calls →
    ∃ definition, t.definitions.get? symbol = some definition ∧
      g.node? symbol = some ⟨definition, calls⟩

theorem builds_directly (ht : t.Keyed) : t.BuildsDirectly where
  fails_iff := by
    rcases build_cases ht with ⟨g, heq, hreg, _⟩ | ⟨symbol, heq, hlacks⟩
    · rw [heq]
      constructor
      · rintro ⟨_, ⟨⟩⟩
      · rintro ⟨symbol, hlacks⟩
        exact absurd hlacks (hreg.not_lacks symbol)
    · exact ⟨fun _ => ⟨symbol, hlacks⟩, fun _ => ⟨_, heq⟩⟩
  names e he := by
    rcases build_cases ht with ⟨g, heq, _⟩ | ⟨symbol, heq, hlacks⟩
    · rw [he] at heq
      cases heq
    · rw [he] at heq
      cases heq
      exact ⟨symbol, rfl, hlacks⟩
  symbols _ := symbols_of_build ht
  nodes g hg symbol calls hcalls := by
    obtain ⟨definition, hdef⟩ := (registered_of_build ht hg).exists_definition hcalls
    refine ⟨definition, hdef, ?_⟩
    rw [node?_of_build ht hg, node?_eq_some_iff]
    exact ⟨hcalls, hdef⟩

/-- Calls in a circle and of their own body, a call that is listed twice, one that stands in two
bodies, and one that leads out of the table. -/
def tangle : CallTable :=
  let body (symbol : String) (line : UInt32) : String × Mention :=
    (symbol, ⟨"tangle", .definition symbol (.ofCoordinates line 0 line 1) none⟩)
  let call (symbol : String) (line : UInt32) : Mention :=
    ⟨"tangle", .reference symbol (.ofCoordinates line 0 line 1)⟩
  { definitions := .ofList [body "a" 0, body "b" 10, body "c" 20]
    calls := .ofList [("a", [call "b" 1, call "b" 1, call "a" 2, call "c" 3]),
      ("b", [call "a" 11, call "c" 3, call "z" 12]), ("c", [])] }

theorem tangle_builds_directly : tangle.Keyed ∧ tangle.BuildsDirectly := by
  have hkeyed : tangle.Keyed := keyed_of_entries (by decide)
  exact ⟨hkeyed, builds_directly hkeyed⟩

end CallTable
end StaticCalls
