import StaticCalls.Proofs.CallGraph.Callers
import Mathlib.Data.List.Induction
import Mathlib.Logic.Relation

/-! Walks from some roots, one after the other. A target is passed by because it is built, because
it is the body at hand, or because its site has been followed before in the same walk; in each case
it is built when the walk has come to its end. So what is built is closed under calls, and it is what
the roots reach, whatever their order (`expandEach_builds`). -/
namespace StaticCalls
open Relation
open scoped List

namespace CallGraph
variable {g g' : CallGraph} {symbol : String}

theorem isBuilt_addNode_iff {n : Node} :
    (g.addNode n).isBuilt symbol ↔ g.isBuilt symbol ∨ symbol = n.symbol := by
  simp only [isBuilt_iff, node?_addNode, Option.or_eq_some_iff]
  constructor
  · rintro ⟨m, hold | ⟨_, hnew⟩⟩
    · exact .inl ⟨m, hold⟩
    · split at hnew
      next heq => exact .inr heq.symm
      next => cases hnew
  · rintro (⟨m, hm⟩ | rfl)
    · exact ⟨m, .inl hm⟩
    · cases hn : g.node? n.symbol with
      | none => exact ⟨n, .inr ⟨rfl, if_pos rfl⟩⟩
      | some m => exact ⟨m, .inl rfl⟩

/-- Each entry of the index lists a call. -/
def Listed (g : CallGraph) : Prop := ∀ symbol, g.callers.get? symbol ≠ some []

theorem listed_addNode (hg : g.Listed) (n : Node) : (g.addNode n).Listed := by
  unfold addNode
  split
  next => exact hg
  next =>
    refine List.foldlRecOn (motive := fun callers : SymbolMentions =>
      ∀ symbol, callers.get? symbol ≠ some []) _ _ hg fun callers hcallers m _ symbol => ?_
    rw [StringMap.append, StringMap.get?_insert]
    split
    next => simp
    next => exact hcallers symbol

/-- The nodes are the same ones, and so are the calls that the index lists under each symbol, but
for their order. -/
structure SameCalls (g g' : CallGraph) : Prop where
  nodes : g.nodes = g'.nodes
  callers : ∀ symbol, Option.Rel (· ~ ·) (g.callers.get? symbol) (g'.callers.get? symbol)

theorem sameCalls_of_nodes (hnodes : g.nodes = g'.nodes) (hindexed : g.Indexed)
    (hindexed' : g'.Indexed) (hlisted : g.Listed) (hlisted' : g'.Listed) : g.SameCalls g' := by
  refine ⟨hnodes, fun symbol => ?_⟩
  have hperm : g.callersOf symbol ~ g'.callersOf symbol := by
    have hcalls : g.callsTo symbol = g'.callsTo symbol := by rw [callsTo, hnodes, callsTo]
    exact (hindexed symbol).trans (hcalls ▸ (hindexed' symbol).symm)
  simp only [callersOf, StringMap.getD] at hperm
  have hne := hlisted symbol
  have hne' := hlisted' symbol
  cases hget : g.callers.get? symbol with
  | none =>
    cases hget' : g'.callers.get? symbol with
    | none => exact .none
    | some calls' =>
      rw [hget, hget'] at hperm
      exact absurd (hget'.trans (congrArg some hperm.nil_eq.symm)) hne'
  | some calls =>
    cases hget' : g'.callers.get? symbol with
    | none =>
      rw [hget, hget'] at hperm
      exact absurd (hget.trans (congrArg some hperm.eq_nil)) hne
    | some calls' =>
      rw [hget, hget'] at hperm
      exact .some hperm

end CallGraph

namespace CallTable
variable {t : CallTable} {g g' : CallGraph} {n : Node} {pending : List Mention}
  {visited visited' : List CallSite} {out : Walk.Outcome GraphError CallGraph Node}

/-- A call in a body of the table whose target has a body there. -/
def Calls (t : CallTable) (caller callee : String) : Prop :=
  (∃ m ∈ t.calls.getD caller [], m.symbol = callee) ∧ t.calls.contains callee

/-- From a root that has a body, over any number of calls, none included. -/
def Reaches (t : CallTable) (root symbol : String) : Prop :=
  t.calls.contains root ∧ ReflTransGen t.Calls root symbol

theorem contains_of_node? {symbol : String} (h : t.node? symbol = some n) :
    t.calls.contains symbol :=
  Option.isSome_iff_exists.mpr ⟨_, (node?_eq_some_iff.mp h).1⟩

theorem calls_of_node? {symbol : String} (h : t.node? symbol = some n) :
    t.calls.getD symbol [] = n.calls := by
  rw [StringMap.getD, (node?_eq_some_iff.mp h).1]
  rfl

theorem exists_node? (hreg : t.Registered) {symbol : String} (h : t.calls.contains symbol) :
    ∃ n, t.node? symbol = some n := by
  obtain ⟨calls, hcalls⟩ := Option.isSome_iff_exists.mp h
  obtain ⟨definition, hdef⟩ := hreg.exists_definition hcalls
  exact ⟨⟨definition, calls⟩, node?_eq_some_iff.mpr ⟨hcalls, hdef⟩⟩

theorem enter_eq_none_iff {symbol : String} :
    t.enter symbol = .ok none ↔ t.calls.contains symbol = false := by
  unfold enter StringMap.contains
  cases t.calls.get? symbol with
  | none => simp
  | some calls => cases t.definitions.get? symbol <;> simp

theorem enter_of_node? {symbol : String} (h : t.node? symbol = some n) :
    t.enter symbol = .ok (some ⟨n.opened, n.calls⟩) := by
  obtain ⟨hcalls, hdef⟩ := node?_eq_some_iff.mp h
  simp only [enter, hcalls, hdef, Node.opened]

theorem calls_of_mem {symbol : String} {call : Mention} {child : Node}
    (hn : t.node? symbol = some n) (hcall : call ∈ n.calls) (hsymbol : child.symbol = call.symbol)
    (hchild : t.node? child.symbol = some child) : t.Calls symbol child.symbol := by
  refine ⟨⟨call, ?_, hsymbol.symm⟩, contains_of_node? hchild⟩
  rwa [calls_of_node? hn]

/-! ### What a walk reaches -/

/-- Only what the body reaches is built from it. -/
theorem reaches_of_descends (ht : t.Keyed) (h : t.builder.Descends n pending visited g out)
    (hn : t.node? n.symbol = some (n.completed pending)) {symbol : String}
    (hbuilt : out.store.isBuilt symbol) :
    g.isBuilt symbol ∨ ReflTransGen t.Calls n.symbol symbol := by
  induction h with
  | close =>
    rcases CallGraph.isBuilt_addNode_iff.mp hbuilt with hold | rfl
    · exact .inl hold
    · exact .inr .refl
  | pass _ _ ih =>
    rw [Node.completed_cons] at hn
    exact ih hn hbuilt
  | absent _ _ _ ih =>
    rw [Node.completed_cons] at hn
    exact ih hn hbuilt
  | refuse _ _ => exact .inl hbuilt
  | @enter n call pending _ _ _ _ _ _ _ _ henter _ _ ihchild ihrest =>
    obtain ⟨child, hsymbol, hchild, rfl⟩ := exists_opened_of_enter ht henter
    have hcalls := calls_of_mem hn (n.mem_calls_completed call pending) hsymbol hchild
    rw [Node.completed_cons] at hn
    rcases ihrest hn hbuilt with hbuilt' | hreach
    · rcases ihchild hchild hbuilt' with hold | hreach
      · exact .inl hold
      · exact .inr (.head hcalls hreach)
    · exact .inr hreach
  | @fail n call pending _ _ _ _ _ _ _ henter _ ih =>
    obtain ⟨child, hsymbol, hchild, rfl⟩ := exists_opened_of_enter ht henter
    have hcalls := calls_of_mem hn (n.mem_calls_completed call pending) hsymbol hchild
    rcases ih hchild hbuilt with hold | hreach
    · exact .inl hold
    · exact .inr (.head hcalls hreach)

/-- The target is built, unless the call leads out of the table. -/
def Answered (t : CallTable) (g : CallGraph) (target : String) : Prop :=
  t.calls.contains target → g.isBuilt target

/-- The site has been followed, or its target is answered. -/
def Met (t : CallTable) (g : CallGraph) (visited : List CallSite) (x : CallSite) : Prop :=
  x ∈ visited ∨ t.Answered g x.symbol

theorem Met.mono (hkept : Extends g g') {x : CallSite} (h : t.Met g visited x) :
    t.Met g' visited x :=
  h.imp_right fun hanswered hin => hkept x.symbol (hanswered hin)

theorem Met.trans {x : CallSite} (h : t.Met g visited' x)
    (hvisited : ∀ y ∈ visited', t.Met g visited y) : t.Met g visited x :=
  h.elim (hvisited x) .inr

/-- What a walk of `body` that succeeds has done, given the sites followed before. -/
structure Completed (t : CallTable) (g : CallGraph) (body : String) (pending : List Mention)
    (visited : List CallSite) (g' : CallGraph) (visited' : List CallSite) : Prop where
  pending : ∀ m ∈ pending, t.Met g' visited m.site
  followed : ∀ x ∈ visited', t.Met g' visited x
  built : ∀ symbol, g'.isBuilt symbol → g.isBuilt symbol ∨ symbol = body ∨
    ∀ m ∈ t.calls.getD symbol [], t.Met g' visited m.site

namespace Completed
variable {g₁ : CallGraph} {body : String} {visited₁ : List CallSite} {call : Mention}

theorem close (t : CallTable) (g : CallGraph) (n : Node) (visited : List CallSite) :
    t.Completed g n.symbol [] visited (g.addNode n) visited where
  pending := by simp
  followed _ hx := .inl hx
  built _ hbuilt := (CallGraph.isBuilt_addNode_iff.mp hbuilt).imp_right .inl

theorem pass (h : t.Completed g body pending visited g' visited')
    (hcall : t.Met g' visited call.site) :
    t.Completed g body (call :: pending) visited g' visited' where
  pending := List.forall_mem_cons.mpr ⟨hcall, h.pending⟩
  followed := h.followed
  built := h.built

/-- A call that is answered in the end need not be told among the sites followed before. -/
theorem follow (h : t.Completed g body pending (call.site :: visited) g' visited')
    (hcall : t.Answered g' call.symbol) :
    t.Completed g body (call :: pending) visited g' visited' := by
  have hmet {x : CallSite} (hx : t.Met g' (call.site :: visited) x) : t.Met g' visited x :=
    hx.trans (List.forall_mem_cons.mpr ⟨.inr hcall, fun _ hy => .inl hy⟩)
  refine ⟨List.forall_mem_cons.mpr ⟨.inr hcall, fun m hm => hmet (h.pending m hm)⟩,
    fun x hx => hmet (h.followed x hx), fun symbol hbuilt => ?_⟩
  exact (h.built symbol hbuilt).imp_right (Or.imp_right fun hcalls m hm => hmet (hcalls m hm))

/-- The walk of a body that has been called, and what is walked after it. -/
theorem enter {child : Node} (hchild : t.node? child.symbol = some child) (hkept : Extends g₁ g')
    (hinside : t.Completed g child.symbol child.calls visited g₁ visited₁)
    (hafter : t.Completed g₁ body pending visited₁ g' visited') :
    t.Completed g body pending visited g' visited' := by
  have hmet {x : CallSite} (hx : t.Met g' visited₁ x) : t.Met g' visited x :=
    hx.trans fun y hy => (hinside.followed y hy).mono hkept
  refine ⟨fun m hm => hmet (hafter.pending m hm), fun x hx => hmet (hafter.followed x hx),
    fun symbol hbuilt => ?_⟩
  rcases hafter.built symbol hbuilt with hbuilt₁ | hself | hcalls
  · rcases hinside.built symbol hbuilt₁ with hold | rfl | hcalls
    · exact .inl hold
    · refine .inr (.inr fun m hm => (hinside.pending m ?_).mono hkept)
      rwa [calls_of_node? hchild] at hm
    · exact .inr (.inr fun m hm => (hcalls m hm).mono hkept)
  · exact .inr (.inl hself)
  · exact .inr (.inr fun m hm => hmet (hcalls m hm))

end Completed

theorem completed_of_descends (ht : t.Keyed) (h : t.builder.Descends n pending visited g out)
    (hg : t.Covers g) (hn : t.node? n.symbol = some (n.completed pending)) {result : Node}
    (hok : out.result = .ok result) :
    t.Completed g n.symbol pending visited out.store out.visited := by
  induction h generalizing result with
  | @close n visited g => exact .close t g n visited
  | @pass n call pending visited g out htakes hrest ih =>
    rw [Node.completed_cons] at hn
    have hexpanded := expanded_of_descends ht hrest hg hn
    refine (ih hg hn hok).pass ?_
    simp only [Walk.takes, builder, Bool.and_eq_false_iff, Bool.not_eq_false', bne_eq_false_iff_eq,
      List.contains_iff_mem] at htakes
    rcases htakes with (hbuilt | hself) | hseen
    · exact .inr fun _ => hexpanded.kept _ hbuilt
    · have hbuilt : out.store.isBuilt n.symbol := (hexpanded.built result hok).2
      have hsymbol : call.symbol = n.symbol := hself
      rw [← hsymbol] at hbuilt
      exact .inr fun _ => hbuilt
    · exact .inl hseen
  | absent _ henter _ ih =>
    rw [Node.completed_cons] at hn
    refine (ih hg hn hok).follow fun hin => ?_
    rw [enter_eq_none_iff.mp henter] at hin
    cases hin
  | refuse _ _ => cases hok
  | @enter n call pending visited g _ result' visited' g₁ out _ henter hchild hrest ihchild
      ihrest =>
    obtain ⟨child, hsymbol, hnode, rfl⟩ := exists_opened_of_enter ht henter
    rw [Node.completed_cons] at hn
    have hexpanded := expanded_of_descends ht hchild hg hnode
    have hkept := (expanded_of_descends ht hrest hexpanded.covers hn).kept
    have hinside := ihchild hg hnode rfl
    refine (hinside.enter hnode hkept (ihrest hexpanded.covers hn hok)).follow fun _ => ?_
    rw [← hsymbol]
    exact hkept _ (hexpanded.built result' rfl).2
  | fail _ _ _ _ => cases hok

/-! ### One root after another -/

/-- Whatever a node that is built calls in the table is built as well. -/
def Closes (t : CallTable) (g : CallGraph) : Prop :=
  ∀ symbol callee, g.isBuilt symbol → t.Calls symbol callee → g.isBuilt callee

theorem closes_of_completed (hg : t.Closes g) (hn : t.node? n.symbol = some n)
    (hkept : Extends g g') (h : t.Completed g n.symbol n.calls [] g' visited') :
    t.Closes g' := by
  have hanswered {m : Mention} (hmet : t.Met g' [] m.site) : t.Answered g' m.symbol :=
    hmet.resolve_left List.not_mem_nil
  rintro symbol _ hbuilt ⟨⟨m, hm, rfl⟩, hin⟩
  rcases h.built symbol hbuilt with hold | rfl | hcalls
  · exact hkept _ (hg symbol m.symbol hold ⟨⟨m, hm, rfl⟩, hin⟩)
  · rw [calls_of_node? hn] at hm
    exact hanswered (h.pending m hm) hin
  · exact hanswered (hcalls m hm) hin

theorem Closes.isBuilt_of_reaches (hg : t.Closes g) {root symbol : String}
    (hroot : g.isBuilt root) (h : ReflTransGen t.Calls root symbol) : g.isBuilt symbol := by
  induction h with
  | refl => exact hroot
  | tail _ hcalls ih => exact hg _ _ ih hcalls

/-- A root without a body builds nothing. -/
theorem expand_of_not_contains {root : String} (h : t.calls.contains root = false)
    (g : CallGraph) : t.expand g root = ⟨.ok none, [], g⟩ := by
  have henter : t.builder.enter root none = .ok none := enter_eq_none_iff.mpr h
  rw [expand, Walk.start_of_none henter]

theorem exists_descends_of_expand {root : String} (hn : t.node? root = some n) (g : CallGraph) :
    ∃ out, t.builder.Descends n.opened n.calls [] g out ∧
      t.expand g root = ⟨out.result.map some, out.visited, out.store⟩ := by
  have henter : t.builder.enter root none = .ok (some ⟨n.opened, n.calls⟩) := enter_of_node? hn
  exact Walk.start_of_enter henter [] g

/-- The graph holds nodes of the table only, and all that these call there. -/
structure Sound (t : CallTable) (g : CallGraph) : Prop where
  covers : t.Covers g
  closes : t.Closes g

/-- A walk from a root leaves the graph sound, and it adds what the root reaches. -/
theorem expand_of_registered (ht : t.Keyed) (hreg : t.Registered) (hg : t.Sound g)
    (root : String) : (∃ n?, (t.expand g root).result = .ok n?) ∧
      t.Sound (t.expand g root).store ∧
      ∀ symbol, (t.expand g root).store.isBuilt symbol ↔
        g.isBuilt symbol ∨ t.Reaches root symbol := by
  cases hroot : t.calls.contains root with
  | false =>
    rw [expand_of_not_contains hroot]
    refine ⟨⟨none, rfl⟩, hg, fun symbol => ⟨.inl, ?_⟩⟩
    rintro (hbuilt | ⟨hin, _⟩)
    · exact hbuilt
    · rw [hroot] at hin
      cases hin
  | true =>
    obtain ⟨n, hn⟩ := exists_node? hreg hroot
    obtain ⟨out, hout, hexpand⟩ := exists_descends_of_expand hn g
    have hsymbol := symbol_of_node? ht hn
    rw [← hsymbol] at hn
    have hexpanded := expanded_of_descends ht hout hg.covers hn
    cases hresult : out.result with
    | error e =>
      obtain ⟨symbol, _, hlacks⟩ := hexpanded.failed e hresult
      exact absurd hlacks (hreg.not_lacks symbol)
    | ok m =>
      have hcompleted := completed_of_descends ht hout hg.covers hn hresult
      have hclosed := closes_of_completed hg.closes hn hexpanded.kept hcompleted
      rw [hexpand, hresult]
      refine ⟨⟨some m, rfl⟩, ⟨hexpanded.covers, hclosed⟩, fun symbol => ⟨fun hbuilt => ?_, ?_⟩⟩
      · refine (reaches_of_descends ht hout hn hbuilt).imp_right fun hreach => ?_
        rw [← hsymbol]
        exact ⟨by rwa [hsymbol], hreach⟩
      · rintro (hold | ⟨_, hreach⟩)
        · exact hexpanded.kept symbol hold
        · refine hclosed.isBuilt_of_reaches ?_ hreach
          rw [← hsymbol]
          exact (hexpanded.built m hresult).2

/-- Where the body and all that it calls in the table are built, nothing is entered. -/
theorem store_eq_of_descends (h : t.builder.Descends n pending visited g out)
    (hn : g.isBuilt n.symbol) (hpending : ∀ m ∈ pending, t.Answered g m.symbol) :
    out.store = g := by
  have hnot {g : CallGraph} {n : Node} {visited : List CallSite} {call : Mention}
      (htakes : t.builder.takes g n visited call = true) (hcall : t.Answered g call.symbol) :
      ¬ t.calls.contains call.symbol := fun hin => by
    simp [Walk.takes, builder, hcall hin] at htakes
  induction h with
  | close => exact if_pos hn
  | pass _ _ ih => exact ih hn (List.forall_mem_cons.mp hpending).2
  | absent _ _ _ ih => exact ih hn (List.forall_mem_cons.mp hpending).2
  | refuse _ _ => rfl
  | enter htakes henter _ _ _ _ =>
    obtain ⟨_, hchild, _⟩ := enter_eq_some henter
    have hin := contains_of_node? hchild
    exact absurd hin (hnot htakes (List.forall_mem_cons.mp hpending).1)
  | fail htakes henter _ _ =>
    obtain ⟨_, hchild, _⟩ := enter_eq_some henter
    have hin := contains_of_node? hchild
    exact absurd hin (hnot htakes (List.forall_mem_cons.mp hpending).1)

/-- A root that is built already changes nothing. -/
theorem store_expand_of_isBuilt (ht : t.Keyed) (hg : t.Sound g) {root : String}
    (hroot : g.isBuilt root) : (t.expand g root).store = g := by
  obtain ⟨n, hn⟩ := CallGraph.isBuilt_iff.mp hroot
  have hnode := hg.covers root n hn
  obtain ⟨out, hout, hexpand⟩ := exists_descends_of_expand hnode g
  have hbuilt : g.isBuilt n.symbol := by rwa [symbol_of_node? ht hnode]
  rw [hexpand]
  refine store_eq_of_descends hout hbuilt fun m hm hin => ?_
  rw [← calls_of_node? hnode] at hm
  exact hg.closes root m.symbol hroot ⟨⟨m, hm, rfl⟩, hin⟩

theorem listed_expand (hg : g.Listed) (root : String) : (t.expand g root).store.Listed := by
  rcases expand_cases t g root with heq | ⟨n, out, _, hout, heq⟩
  · rw [heq]
    exact hg
  · rw [heq]
    exact hout.store_induction (P := CallGraph.Listed)
      (fun _ n hg => CallGraph.listed_addNode hg n) hg

/-- Walks from the roots, one after the other, up to the first one that fails. -/
def expandEach (t : CallTable) (roots : List String) : Except GraphError CallGraph :=
  roots.foldlM (fun g root =>
    let outcome := t.expand g root
    outcome.result.map fun _ => outcome.store) .empty

theorem expandEach_concat (t : CallTable) (roots : List String) (root : String) :
    t.expandEach (roots ++ [root]) = t.expandEach roots >>= fun g =>
      (t.expand g root).result.map fun _ => (t.expand g root).store := by
  rw [expandEach, List.foldlM_append]
  refine congrArg (t.expandEach roots >>= ·) (funext fun g => ?_)
  rw [List.foldlM_cons]
  exact bind_pure _

/-- What is built from the roots. -/
structure BuiltFrom (t : CallTable) (roots : List String) (g : CallGraph) : Prop where
  sound : t.Sound g
  isBuilt_iff : ∀ symbol, g.isBuilt symbol ↔ ∃ root ∈ roots, t.Reaches root symbol
  indexed : g.Indexed
  listed : g.Listed

theorem exists_builtFrom (ht : t.Keyed) (hreg : t.Registered) (roots : List String) :
    ∃ g, t.expandEach roots = .ok g ∧ t.BuiltFrom roots g := by
  induction roots using List.reverseRecOn with
  | nil =>
    refine ⟨.empty, rfl, ⟨?_, ?_⟩, ?_, CallGraph.indexed_empty, ?_⟩
    · rintro symbol n ⟨⟩
    · rintro symbol callee ⟨⟩
    · intro symbol
      constructor
      · rintro ⟨⟩
      · rintro ⟨_, ⟨⟩, _⟩
    · rintro symbol ⟨⟩
  | append_singleton roots root ih =>
    obtain ⟨g, heq, hg⟩ := ih
    obtain ⟨⟨n?, hok⟩, hsound, hbuilt⟩ := expand_of_registered ht hreg hg.sound root
    refine ⟨(t.expand g root).store, ?_, hsound, fun symbol => ?_, indexed_expand hg.indexed root,
      listed_expand hg.listed root⟩
    · rw [expandEach_concat, heq]
      show (t.expand g root).result.map _ = _
      rw [hok]
      rfl
    · rw [hbuilt, hg.isBuilt_iff]
      simp [or_and_right, exists_or]

/-- Passing by the roots that are built, as a build does, comes to the same. -/
theorem build_eq_expandEach (ht : t.Keyed) (hreg : t.Registered) :
    t.build = t.expandEach t.calls.keys := by
  rw [build]
  generalize t.calls.keys = roots
  induction roots using List.reverseRecOn with
  | nil => rfl
  | append_singleton roots root ih =>
    obtain ⟨g, heq, hg⟩ := exists_builtFrom ht hreg roots
    obtain ⟨⟨n?, hok⟩, _⟩ := expand_of_registered ht hreg hg.sound root
    have hnew : t.expandNew g root = .ok (t.expand g root).store := by
      unfold expandNew
      split
      next hbuilt => rw [store_expand_of_isBuilt ht hg.sound hbuilt]
      next => exact congrArg (Except.map fun _ => (t.expand g root).store) hok
    rw [expandEach_concat, List.foldlM_append, ih, heq]
    show t.expandNew g root >>= pure = (t.expand g root).result.map _
    rw [hnew, hok]
    rfl

theorem sameCalls_of_builtFrom {roots roots' : List String} (hg : t.BuiltFrom roots g)
    (hg' : t.BuiltFrom roots' g') (hroots : ∀ root, root ∈ roots' ↔ root ∈ roots) :
    g.SameCalls g' := by
  have hbuilt (symbol : String) : g'.isBuilt symbol ↔ g.isBuilt symbol := by
    simp only [hg'.isBuilt_iff, hg.isBuilt_iff, hroots]
  have hkept : Extends g g' := fun symbol => (hbuilt symbol).mpr
  have hkept' : Extends g' g := fun symbol => (hbuilt symbol).mp
  have hnodes : g.nodes = g'.nodes := StringMap.ext_get? fun symbol => Option.ext fun n =>
    ⟨fun hn => hkept.node? hg.sound.covers hg'.sound.covers hn,
      fun hn => hkept'.node? hg'.sound.covers hg.sound.covers hn⟩
  exact CallGraph.sameCalls_of_nodes hnodes hg.indexed hg'.indexed hg.listed hg'.listed

/-- The roots decide what is built, and neither their order nor repetitions make a difference. -/
structure Builds (t : CallTable) (roots : List String) (g : CallGraph) : Prop where
  result : t.expandEach roots = .ok g
  isBuilt_iff : ∀ symbol, g.isBuilt symbol ↔ ∃ root ∈ roots, t.Reaches root symbol
  /-- A root without a body builds nothing. -/
  foreign : ∀ root, t.calls.contains root = false → t.expandEach (roots ++ [root]) = .ok g
  /-- A root that is built changes nothing. -/
  rebuilt : ∀ root, g.isBuilt root → t.expandEach (roots ++ [root]) = .ok g
  reordered : ∀ roots', (∀ root, root ∈ roots' ↔ root ∈ roots) →
    ∃ g', t.expandEach roots' = .ok g' ∧ g.SameCalls g'

/-- In a table that registers all its symbols under their own names, walks from any roots succeed. -/
theorem expandEach_builds (ht : t.Keyed) (hreg : t.Registered) (roots : List String) :
    ∃ g, t.Builds roots g := by
  obtain ⟨g, heq, hg⟩ := exists_builtFrom ht hreg roots
  have hconcat (root : String) (hstore : (t.expand g root).store = g) :
      t.expandEach (roots ++ [root]) = .ok g := by
    obtain ⟨⟨n?, hok⟩, _⟩ := expand_of_registered ht hreg hg.sound root
    rw [expandEach_concat, heq]
    show (t.expand g root).result.map _ = _
    rw [hok, hstore]
    rfl
  refine ⟨g, heq, hg.isBuilt_iff, fun root hroot => hconcat root ?_,
    fun root hroot => hconcat root (store_expand_of_isBuilt ht hg.sound hroot),
    fun roots' hroots => ?_⟩
  · rw [expand_of_not_contains hroot]
  · obtain ⟨g', heq', hg'⟩ := exists_builtFrom ht hreg roots'
    exact ⟨g', heq', sameCalls_of_builtFrom hg hg' hroots⟩

/-- The first root has no body, and the last two are in one circle. -/
theorem tangle_expandEach_builds : tangle.Keyed ∧ tangle.Registered ∧
    ∃ g, tangle.Builds ["z", "c", "b", "a"] g := by
  have hkeyed : tangle.Keyed := keyed_of_entries (by decide)
  have hregistered : tangle.Registered := registered_of_entries (by decide)
  exact ⟨hkeyed, hregistered, expandEach_builds hkeyed hregistered ["z", "c", "b", "a"]⟩

end CallTable
end StaticCalls
