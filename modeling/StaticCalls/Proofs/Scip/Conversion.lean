import StaticCalls.IndexFile
import StaticCalls.Proofs.Except

/-! The conversion of a decoded message. It fails on the first list of numbers, in the order of the
message, that is no range, and the index it gives otherwise says what the message says
(`toIndex_converts`). -/
namespace StaticCalls

/-! ### Lists of numbers -/

theorem nonneg_of_toNat_eq {u : UInt32} {v : Int32} (h : (u.toNat : Int) = v.toInt) : 0 ≤ v := by
  rw [Int32.le_iff_toInt_le, ← h]
  exact Int.natCast_nonneg _

theorem toNat_toUInt32 {v : Int32} (h : 0 ≤ v) : (v.toUInt32.toNat : Int) = v.toInt := by
  rw [Int32.le_iff_toInt_le] at h
  exact (BitVec.toInt_eq_toNat_of_lt (BitVec.toInt_pos_iff.mp h)).symm

/-- The numbers that say where a position is. -/
structure Position.IsAt (p : Position) (line character : Int32) : Prop where
  line : (p.line.toNat : Int) = line.toInt
  character : (p.character.toNat : Int) = character.toInt

namespace Position
variable {p : Position} {line character : Int32}

theorem IsAt.of_nonneg (hline : 0 ≤ line) (hcharacter : 0 ≤ character) :
    IsAt ⟨line.toUInt32, character.toUInt32⟩ line character :=
  ⟨toNat_toUInt32 hline, toNat_toUInt32 hcharacter⟩

theorem IsAt.nonneg (h : p.IsAt line character) : 0 ≤ line ∧ 0 ≤ character :=
  ⟨nonneg_of_toNat_eq h.line, nonneg_of_toNat_eq h.character⟩

theorem IsAt.eq (h : p.IsAt line character) : p = ⟨line.toUInt32, character.toUInt32⟩ := by
  have hsame := IsAt.of_nonneg h.nonneg.1 h.nonneg.2
  obtain ⟨l, c⟩ := p
  congr 1
  · exact UInt32.toNat_inj.mp (Int.ofNat_inj.mp (h.line.trans hsame.line.symm))
  · exact UInt32.toNat_inj.mp (Int.ofNat_inj.mp (h.character.trans hsame.character.symm))

end Position

namespace Scip

/-- Three or four numbers, none of them negative. -/
def IsWellFormed (values : List Int32) : Prop :=
  (values.length = 3 ∨ values.length = 4) ∧ ∀ v ∈ values, 0 ≤ v

instance : DecidablePred IsWellFormed := fun values =>
  inferInstanceAs (Decidable ((values.length = 3 ∨ values.length = 4) ∧ ∀ v ∈ values, 0 ≤ v))

/-- The span that a list of numbers means. With three numbers both ends are on one line. -/
inductive Means : List Int32 → SourceRange → Prop
  | line {line start stop : Int32} {r : SourceRange} (hstart : r.start.IsAt line start)
      (hstop : r.stop.IsAt line stop) : Means [line, start, stop] r
  | lines {startLine start stopLine stop : Int32} {r : SourceRange}
      (hstart : r.start.IsAt startLine start) (hstop : r.stop.IsAt stopLine stop) :
      Means [startLine, start, stopLine, stop] r

theorem Means.isWellFormed {values : List Int32} {r : SourceRange} (h : Means values r) :
    IsWellFormed values := by
  cases h with
  | line hstart hstop => exact ⟨.inl rfl, by simp [hstart.nonneg, hstop.nonneg]⟩
  | lines hstart hstop => exact ⟨.inr rfl, by simp [hstart.nonneg, hstop.nonneg]⟩

theorem IsWellFormed.exists_means {values : List Int32} (h : IsWellFormed values) :
    ∃ r, Means values r := by
  obtain ⟨hlength, hall⟩ := h
  match values, hlength with
  | [line, start, stop], _ =>
    simp only [List.forall_mem_cons] at hall
    obtain ⟨hline, hstart, hstop, -⟩ := hall
    exact ⟨⟨_, _⟩, .line (.of_nonneg hline hstart) (.of_nonneg hline hstop)⟩
  | [startLine, start, stopLine, stop], _ =>
    simp only [List.forall_mem_cons] at hall
    obtain ⟨hstartLine, hstart, hstopLine, hstop, -⟩ := hall
    exact ⟨⟨_, _⟩, .lines (.of_nonneg hstartLine hstart) (.of_nonneg hstopLine hstop)⟩

theorem Means.ofNumbers?_eq {values : List Int32} {r : SourceRange} (h : Means values r) :
    SourceRange.ofNumbers? values = some r := by
  have hall : values.all (0 ≤ ·) :=
    List.all_eq_true.mpr fun v hv => decide_eq_true (h.isWellFormed.2 v hv)
  rw [SourceRange.ofNumbers?, if_pos hall]
  cases h with
  | line hstart hstop => exact congrArg some (congrArg₂ SourceRange.mk hstart.eq hstop.eq).symm
  | lines hstart hstop => exact congrArg some (congrArg₂ SourceRange.mk hstart.eq hstop.eq).symm

theorem isWellFormed_of_ofNumbers? {values : List Int32} {r : SourceRange}
    (h : SourceRange.ofNumbers? values = some r) : IsWellFormed values := by
  rw [SourceRange.ofNumbers?] at h
  split at h
  next hall =>
    refine ⟨?_, fun v hv => of_decide_eq_true (List.all_eq_true.mp hall v hv)⟩
    match values, h with
    | [_, _, _], _ => exact .inl rfl
    | [_, _, _, _], _ => exact .inr rfl
    | [], h | [_], h | [_, _], h | _ :: _ :: _ :: _ :: _ :: _, h => cases h
  next => cases h

theorem ofNumbers?_eq_some_iff {values : List Int32} {r : SourceRange} :
    SourceRange.ofNumbers? values = some r ↔ Means values r := by
  refine ⟨fun h => ?_, Means.ofNumbers?_eq⟩
  obtain ⟨r', hr'⟩ := (isWellFormed_of_ofNumbers? h).exists_means
  cases hr'.ofNumbers?_eq.symm.trans h
  exact hr'

theorem rangeOf_eq_ok_iff {path : String} {values : List Int32} {r : SourceRange} :
    rangeOf path values = .ok r ↔ Means values r := by
  rw [← ofNumbers?_eq_some_iff, rangeOf]
  cases SourceRange.ofNumbers? values <;> simp

theorem errorOf?_rangeOf (path : String) (values : List Int32) : errorOf? (rangeOf path values) =
    if IsWellFormed values then none else some (.malformedRange path values) := by
  rw [rangeOf]
  cases hnumbers : SourceRange.ofNumbers? values with
  | none =>
    have hmalformed : ¬ IsWellFormed values := fun h => by
      obtain ⟨r, hr⟩ := h.exists_means
      cases hnumbers.symm.trans hr.ofNumbers?_eq
    rw [if_neg hmalformed]
    rfl
  | some r =>
    rw [if_pos (isWellFormed_of_ofNumbers? hnumbers)]
    rfl

/-- An empty list is no enclosing range. -/
def enclosingRangeOf (path : String) (values : List Int32) : Except GraphError (Option SourceRange) :=
  if values = [] then .ok none else some <$> rangeOf path values

theorem toOccurrence_eq (path : String) (o : OccurrenceMessage) :
    o.toOccurrence path = rangeOf path o.range >>= fun range =>
      (fun enclosing => ⟨o.symbol, ⟨o.symbolRoles⟩, range, enclosing⟩) <$>
        enclosingRangeOf path o.enclosingRange := by
  obtain ⟨range, symbol, roles, enclosing⟩ := o
  cases enclosing with
  | nil => rfl
  | cons v rest =>
    rw [enclosingRangeOf, if_neg (List.cons_ne_nil v rest)]
    simp only [OccurrenceMessage.toOccurrence, List.isEmpty_cons]
    rfl

/-! ### What fails -/

/-- The lists that are read as ranges, in the order in which they are read. An empty list is no
enclosing range. -/
def OccurrenceMessage.rangeLists (o : OccurrenceMessage) : List (List Int32) :=
  o.range :: if o.enclosingRange = [] then [] else [o.enclosingRange]

def DocumentMessage.rangeLists (d : DocumentMessage) : List (String × List Int32) :=
  d.occurrences.flatMap fun o => o.rangeLists.map (d.relativePath, ·)

/-- The lists of all documents, each with the path of its document. -/
def IndexMessage.rangeLists (raw : IndexMessage) : List (String × List Int32) :=
  raw.documents.flatMap DocumentMessage.rangeLists

theorem findSome?_rangeOf (path : String) (lists : List (List Int32)) :
    (lists.findSome? fun values => errorOf? (rangeOf path values)) =
      (lists.find? fun values => ¬ IsWellFormed values).map (.malformedRange path) := by
  induction lists with
  | nil => rfl
  | cons values rest ih =>
    rw [List.findSome?_cons, List.find?_cons, errorOf?_rangeOf]
    by_cases h : IsWellFormed values <;> simp [h, ih]

theorem errorOf?_toOccurrence (path : String) (o : OccurrenceMessage) :
    errorOf? (o.toOccurrence path) =
      o.rangeLists.findSome? fun values => errorOf? (rangeOf path values) := by
  rw [toOccurrence_eq, OccurrenceMessage.rangeLists, List.findSome?_cons]
  cases rangeOf path o.range with
  | error e => rfl
  | ok range =>
    show errorOf? (_ <$> enclosingRangeOf path o.enclosingRange) = List.findSome? _ _
    rw [errorOf?_map, enclosingRangeOf]
    split
    next => rfl
    next => rw [errorOf?_map, List.findSome?_singleton]

theorem errorOf?_toDocument (d : DocumentMessage) : errorOf? d.toDocument =
    (d.rangeLists.find? fun l => ¬ IsWellFormed l.2).map fun l => .malformedRange l.1 l.2 := by
  have hlists : ∀ o : OccurrenceMessage, errorOf? (o.toOccurrence d.relativePath) =
      ((o.rangeLists.map (d.relativePath, ·)).find? fun l => ¬ IsWellFormed l.2).map
        fun l => .malformedRange l.1 l.2 := by
    intro o
    rw [errorOf?_toOccurrence, findSome?_rangeOf, List.find?_map, Option.map_map]
    rfl
  calc errorOf? d.toDocument
      = errorOf? (d.occurrences.mapM (·.toOccurrence d.relativePath)) := errorOf?_map _ _
    _ = d.occurrences.findSome? fun o => errorOf? (o.toOccurrence d.relativePath) :=
        errorOf?_mapM _ _
    _ = (d.rangeLists.find? fun l => ¬ IsWellFormed l.2).map
          fun l => .malformedRange l.1 l.2 := by
        rw [DocumentMessage.rangeLists, List.find?_flatMap, List.map_findSome?]
        exact congrArg (d.occurrences.findSome? ·) (funext hlists)

/-- The first malformed list is what fails. -/
theorem errorOf?_toIndex (raw : IndexMessage) : errorOf? raw.toIndex =
    (raw.rangeLists.find? fun l => ¬ IsWellFormed l.2).map fun l => .malformedRange l.1 l.2 :=
  calc errorOf? raw.toIndex
      = errorOf? (raw.documents.mapM DocumentMessage.toDocument) := errorOf?_map _ _
    _ = raw.documents.findSome? fun d => errorOf? d.toDocument := errorOf?_mapM _ _
    _ = (raw.rangeLists.find? fun l => ¬ IsWellFormed l.2).map
          fun l => .malformedRange l.1 l.2 := by
        rw [IndexMessage.rangeLists, List.find?_flatMap, List.map_findSome?]
        exact congrArg (raw.documents.findSome? ·) (funext errorOf?_toDocument)

/-! ### What succeeds -/

/-- The occurrence that a message means. -/
structure OccurrenceMessage.Matches (raw : OccurrenceMessage) (o : Occurrence) : Prop where
  symbol : o.symbol = raw.symbol
  roles : o.roles.bits = raw.symbolRoles
  range : Means raw.range o.range
  enclosing : ∀ r, o.enclosingRange = some r → Means raw.enclosingRange r
  absent : o.enclosingRange = none ↔ raw.enclosingRange = []

/-- What a message tells about a symbol. An empty name is no name. -/
structure SymbolMessage.Matches (raw : SymbolMessage) (info : SymbolInformation) : Prop where
  symbol : info.symbol = raw.symbol
  kind : info.kind = kindName raw.kind
  displayName : ∀ name, info.displayName = some name ↔ name ≠ "" ∧ name = raw.displayName

structure DocumentMessage.Matches (raw : DocumentMessage) (d : Document) : Prop where
  path : d.relativePath = raw.relativePath
  occurrences : List.Forall₂ OccurrenceMessage.Matches raw.occurrences d.occurrences
  symbols : List.Forall₂ SymbolMessage.Matches raw.symbols d.symbols

theorem enclosingRangeOf_eq_ok_iff {path : String} {values : List Int32} {e : Option SourceRange} :
    enclosingRangeOf path values = .ok e ↔
      (∀ r, e = some r → Means values r) ∧ (e = none ↔ values = []) := by
  rw [enclosingRangeOf]
  split
  next h =>
    cases e with
    | none => simp [h]
    | some r => simp [h]
  next h =>
    show Except.map some (rangeOf path values) = _ ↔ _
    rw [map_eq_ok_iff]
    cases e with
    | none => simp [h]
    | some r => simp [h, rangeOf_eq_ok_iff]

theorem toOccurrence_eq_ok_iff {path : String} {raw : OccurrenceMessage} {o : Occurrence} :
    raw.toOccurrence path = .ok o ↔ raw.Matches o := by
  rw [toOccurrence_eq, bind_eq_ok_iff]
  constructor
  · rintro ⟨range, hrange, h⟩
    obtain ⟨e, he, rfl⟩ := map_eq_ok_iff.mp h
    obtain ⟨henclosing, habsent⟩ := enclosingRangeOf_eq_ok_iff.mp he
    exact ⟨rfl, rfl, rangeOf_eq_ok_iff.mp hrange, henclosing, habsent⟩
  · intro h
    obtain ⟨symbol, ⟨bits⟩, range, e⟩ := o
    obtain ⟨rfl, rfl, hrange, henclosing, habsent⟩ := h
    exact ⟨range, rangeOf_eq_ok_iff.mpr hrange,
      map_eq_ok_iff.mpr ⟨e, enclosingRangeOf_eq_ok_iff.mpr ⟨henclosing, habsent⟩, rfl⟩⟩

theorem displayName_toInformation (raw : SymbolMessage) (name : String) :
    raw.toInformation.displayName = some name ↔ name ≠ "" ∧ name = raw.displayName := by
  rw [SymbolMessage.toInformation]
  by_cases h : raw.displayName = ""
  · simp [h]
  · simp only [if_neg h, Option.some_inj]
    constructor
    · rintro rfl
      exact ⟨h, rfl⟩
    · rintro ⟨-, rfl⟩
      rfl

theorem toInformation_eq_iff {raw : SymbolMessage} {info : SymbolInformation} :
    raw.toInformation = info ↔ raw.Matches info := by
  constructor
  · rintro rfl
    exact ⟨rfl, rfl, displayName_toInformation raw⟩
  · intro h
    have hname : info.displayName = raw.toInformation.displayName :=
      Option.ext fun name => (h.displayName name).trans (displayName_toInformation raw name).symm
    obtain ⟨symbol, kind, displayName⟩ := info
    obtain ⟨rfl, rfl, -⟩ := h
    cases hname
    rfl

theorem toDocument_eq_ok_iff {raw : DocumentMessage} {d : Document} :
    raw.toDocument = .ok d ↔ raw.Matches d := by
  have hsymbols : ∀ symbols, raw.symbols.map SymbolMessage.toInformation = symbols ↔
      List.Forall₂ SymbolMessage.Matches raw.symbols symbols := by
    intro symbols
    simp only [← List.forall₂_eq_eq_eq, List.forall₂_map_left_iff, toInformation_eq_iff]
  rw [DocumentMessage.toDocument, bind_eq_ok_iff]
  simp only [mapM_eq_ok_iff, toOccurrence_eq_ok_iff]
  obtain ⟨path, occurrences, symbols⟩ := d
  constructor
  · rintro ⟨occurrences', hoccurrences, h⟩
    cases h
    exact ⟨rfl, hoccurrences, (hsymbols _).mp rfl⟩
  · rintro ⟨rfl, hoccurrences, h⟩
    cases (hsymbols _).mpr h
    exact ⟨occurrences, hoccurrences, rfl⟩

theorem toIndex_eq_ok_iff {raw : IndexMessage} {index : Index} :
    raw.toIndex = .ok index ↔
      List.Forall₂ DocumentMessage.Matches raw.documents index.documents := by
  rw [IndexMessage.toIndex, bind_eq_ok_iff]
  simp only [mapM_eq_ok_iff, toDocument_eq_ok_iff]
  constructor
  · rintro ⟨documents, hdocuments, h⟩
    cases h
    exact hdocuments
  · intro h
    exact ⟨index.documents, h, rfl⟩

/-! ### The whole message -/

/-- How the load of a message ends. -/
structure IndexMessage.Converts (raw : IndexMessage) (result : Except LoadError Index) : Prop where
  accepted : (∃ index, result = .ok index) ↔ ∀ d ∈ raw.documents, ∀ o ∈ d.occurrences,
    IsWellFormed o.range ∧ (o.enclosingRange = [] ∨ IsWellFormed o.enclosingRange)
  converted : ∀ index, result = .ok index ↔
    List.Forall₂ DocumentMessage.Matches raw.documents index.documents
  failed : ∀ e, result = .error e ↔ ∃ path values,
    (raw.rangeLists.find? fun l => ¬ IsWellFormed l.2) = some (path, values) ∧
      e = .occurrence (.malformedRange path values)
  decoded : ∀ octets, decode? octets = some raw → Index.ofScip octets = result

theorem forall_mem_rangeLists {o : OccurrenceMessage} {P : List Int32 → Prop} :
    (∀ values ∈ o.rangeLists, P values) ↔
      P o.range ∧ (o.enclosingRange = [] ∨ P o.enclosingRange) := by
  rw [OccurrenceMessage.rangeLists, List.forall_mem_cons]
  by_cases h : o.enclosingRange = [] <;> simp [h]

theorem exists_toIndex_eq_ok_iff {raw : IndexMessage} : (∃ index, raw.toIndex = .ok index) ↔
    ∀ d ∈ raw.documents, ∀ o ∈ d.occurrences,
      IsWellFormed o.range ∧ (o.enclosingRange = [] ∨ IsWellFormed o.enclosingRange) := by
  rw [← errorOf?_eq_none_iff, errorOf?_toIndex, Option.map_eq_none_iff, List.find?_eq_none]
  simp only [decide_not, Bool.not_eq_true', decide_eq_false_iff_not, not_not,
    IndexMessage.rangeLists, DocumentMessage.rangeLists, List.mem_flatMap, List.mem_map,
    ← forall_mem_rangeLists]
  constructor
  · intro h d hd o ho values hvalues
    exact h (d.relativePath, values) ⟨d, hd, o, ho, values, hvalues, rfl⟩
  · rintro h _ ⟨d, hd, o, ho, values, hvalues, rfl⟩
    exact h d hd o ho values hvalues

/-- A message is converted if all its ranges are well formed, and each part of it is then kept; the
first malformed range in document order is reported otherwise. -/
theorem toIndex_converts (raw : IndexMessage) :
    raw.Converts (raw.toIndex.mapError .occurrence) where
  accepted := by
    rw [← exists_toIndex_eq_ok_iff]
    cases raw.toIndex <;> simp [Except.mapError]
  converted index := by
    rw [← toIndex_eq_ok_iff]
    cases raw.toIndex <;> simp [Except.mapError]
  failed e := by
    rw [← errorOf?_eq_some_iff, errorOf?_mapError, errorOf?_toIndex, Option.map_map,
      Option.map_eq_some_iff, Prod.exists]
    simp only [Function.comp_apply, eq_comm (a := e)]
  decoded octets hdecode := by
    simp only [Index.ofScip, hdecode]
    cases raw.toIndex <;> rfl

/-- The range before the enclosing range, though both are malformed. -/
example : (IndexMessage.mk [⟨"a.py", [⟨[0, 4, 7], "", 1, []⟩, ⟨[1, 2], "", 0, [-1, 0, 0]⟩], []⟩]).toIndex =
    .error (.malformedRange "a.py" [1, 2]) := by decide

end Scip
end StaticCalls
