import StaticCalls.IndexFile
import StaticCalls.Proofs.Scip.Decoding
import StaticCalls.Sample
import Mathlib

/-! An index through SCIP and back. Where no coordinate is past the signed range all of it is kept
but the symbol tables: a range is encoded by three numbers or by four and is read from either, and
the list of an enclosing range is empty only where there is none (`ofScip_encode`). -/
namespace StaticCalls

namespace SourceRange
variable {r : SourceRange}

/-- No coordinate is past the signed range. -/
def IsSigned (r : SourceRange) : Prop :=
  ∀ v ∈ [r.start.line, r.start.character, r.stop.line, r.stop.character], v.toNat ≤ 2147483647

-- by the list, as an instance for all 32-bit numbers would try each of them
instance : Decidable r.IsSigned :=
  List.decidableBAll (fun v : UInt32 => v.toNat ≤ 2147483647)
    [r.start.line, r.start.character, r.stop.line, r.stop.character]

/-- Three coordinates of a range on one line, and the four of all others. -/
def coordinates (r : SourceRange) : List UInt32 :=
  if r.start.line = r.stop.line then [r.start.line, r.start.character, r.stop.character]
  else [r.start.line, r.start.character, r.stop.line, r.stop.character]

/-- The coordinates as they are encoded. -/
def numbers (r : SourceRange) : List Int32 := r.coordinates.map UInt32.toInt32

theorem IsSigned.le_of_mem_coordinates (h : r.IsSigned) :
    ∀ v ∈ r.coordinates, v.toNat ≤ 2147483647 := by
  unfold coordinates
  unfold IsSigned at h
  split <;> simp_all

theorem numbers_ne_nil (r : SourceRange) : r.numbers ≠ [] := by
  unfold numbers coordinates
  split <;> simp

theorem toNumbers?_of_isSigned (h : r.IsSigned) : r.toNumbers? = some r.numbers := by
  have hall : r.coordinates.all (fun v => v.toNat ≤ Int32.maxValue.toNatClampNeg) := by
    rw [List.all_eq_true]
    exact fun v hv => decide_eq_true (h.le_of_mem_coordinates v hv)
  exact if_pos hall

/-- A number up to the signed range keeps its value. -/
theorem nonneg_toInt32 {v : UInt32} (h : v.toNat ≤ 2147483647) : 0 ≤ v.toInt32 := by
  rw [Int32.le_iff_toInt_le]
  show (0 : Int) ≤ v.toBitVec.toInt
  rw [BitVec.toInt_eq_toNat_of_lt (by show 2 * v.toNat < 2 ^ 32; omega)]
  exact Int.natCast_nonneg _

theorem ofNumbers?_numbers (h : r.IsSigned) : ofNumbers? r.numbers = some r := by
  have hall : r.numbers.all (fun v => 0 ≤ v) := by
    rw [List.all_eq_true]
    intro v hv
    obtain ⟨u, hu, rfl⟩ := List.mem_map.mp hv
    exact decide_eq_true (nonneg_toInt32 (h.le_of_mem_coordinates u hu))
  have hback : r.numbers.map Int32.toUInt32 = r.coordinates := by
    rw [numbers, List.map_map]
    exact (List.map_congr_left fun v _ => v.toUInt32_toInt32).trans (List.map_id _)
  rw [ofNumbers?, if_pos hall, hback, coordinates]
  by_cases hline : r.start.line = r.stop.line
  · rw [if_pos hline]
    show some (SourceRange.mk r.start ⟨r.start.line, r.stop.character⟩) = some r
    rw [hline]
  · rw [if_neg hline]
    rfl

end SourceRange

namespace Occurrence

def ranges (o : Occurrence) : List SourceRange := o.range :: o.enclosingRange.toList

/-- No coordinate of its ranges is past the signed range. -/
def IsSigned (o : Occurrence) : Prop := ∀ r ∈ o.ranges, r.IsSigned

/-- The occurrence as it is encoded. -/
def message (o : Occurrence) : Scip.OccurrenceMessage where
  range := o.range.numbers
  symbol := o.symbol
  symbolRoles := o.roles.bits
  enclosingRange := (o.enclosingRange.map SourceRange.numbers).getD []

variable {o : Occurrence}

theorem ofOccurrence?_eq (h : o.IsSigned) : Scip.OccurrenceMessage.ofOccurrence? o = some o.message := by
  obtain ⟨symbol, roles, range, enclosing⟩ := o
  obtain ⟨hrange, henclosing⟩ := List.forall_mem_cons.mp h
  rw [Scip.OccurrenceMessage.ofOccurrence?, SourceRange.toNumbers?_of_isSigned hrange]
  cases enclosing with
  | none => rfl
  | some r =>
    rw [Option.map_some, SourceRange.toNumbers?_of_isSigned (henclosing r List.mem_cons_self)]
    rfl

theorem rangeOf_numbers {r : SourceRange} (h : r.IsSigned) (path : String) :
    Scip.rangeOf path r.numbers = .ok r := by
  rw [Scip.rangeOf, SourceRange.ofNumbers?_numbers h]

/-- An enclosing range is there after decoding if it was there before. -/
theorem toOccurrence_message (h : o.IsSigned) (path : String) : o.message.toOccurrence path = .ok o := by
  obtain ⟨symbol, roles, range, enclosing⟩ := o
  obtain ⟨hrange, henclosing⟩ := List.forall_mem_cons.mp h
  rw [Scip.OccurrenceMessage.toOccurrence]
  cases enclosing with
  | none =>
    simp only [message]
    rw [rangeOf_numbers hrange]
    rfl
  | some r =>
    have hsome : r.numbers.isEmpty = false := List.isEmpty_eq_false_iff.mpr r.numbers_ne_nil
    simp only [message, Option.map_some, Option.getD_some, hsome]
    rw [rangeOf_numbers hrange, rangeOf_numbers (henclosing r List.mem_cons_self)]
    rfl

end Occurrence

namespace Document

/-- The document as it is encoded. -/
def message (d : Document) : Scip.DocumentMessage where
  relativePath := d.relativePath
  occurrences := d.occurrences.map Occurrence.message

def withoutSymbols (d : Document) : Document := { d with symbols := [] }

variable {d : Document}

theorem ofDocument?_eq (h : ∀ o ∈ d.occurrences, o.IsSigned) :
    Scip.DocumentMessage.ofDocument? d = some d.message := by
  have hoccurrences : d.occurrences.mapM Scip.OccurrenceMessage.ofOccurrence? =
      some (d.occurrences.map Occurrence.message) :=
    mapM_eq_pure_map fun o ho => Occurrence.ofOccurrence?_eq (h o ho)
  rw [Scip.DocumentMessage.ofDocument?, hoccurrences]
  rfl

theorem toDocument_message (h : ∀ o ∈ d.occurrences, o.IsSigned) :
    d.message.toDocument = .ok d.withoutSymbols := by
  have hoccurrences : d.message.occurrences.mapM (·.toOccurrence d.relativePath) =
      Except.ok (ε := GraphError) d.occurrences := by
    rw [message, List.mapM_map]
    have hback := mapM_eq_pure_map (m := Except GraphError) (g := id)
      fun o ho => Occurrence.toOccurrence_message (h o ho) d.relativePath
    rwa [List.map_id] at hback
  have hpath : d.message.relativePath = d.relativePath := rfl
  rw [Scip.DocumentMessage.toDocument, hpath, hoccurrences]
  rfl

end Document

namespace Index

/-- The index as it is encoded. -/
def message (index : Index) : Scip.IndexMessage := ⟨index.documents.map Document.message⟩

def withoutSymbols (index : Index) : Index := ⟨index.documents.map Document.withoutSymbols⟩

/-- No coordinate of a range is past the signed range. -/
def IsSigned (index : Index) : Prop := ∀ d ∈ index.documents, ∀ o ∈ d.occurrences, o.IsSigned

instance {index : Index} : Decidable index.IsSigned :=
  inferInstanceAs (Decidable (∀ d ∈ index.documents, ∀ o ∈ d.occurrences, ∀ r ∈ o.ranges, r.IsSigned))

variable {index : Index}

theorem ofIndex?_eq (h : index.IsSigned) : Scip.IndexMessage.ofIndex? index = some index.message := by
  have hdocuments : index.documents.mapM Scip.DocumentMessage.ofDocument? =
      some (index.documents.map Document.message) :=
    mapM_eq_pure_map fun d hd => Document.ofDocument?_eq (h d hd)
  rw [Scip.IndexMessage.ofIndex?, hdocuments]
  rfl

theorem toIndex_message (h : index.IsSigned) : index.message.toIndex = .ok index.withoutSymbols := by
  have hdocuments : index.message.documents.mapM Scip.DocumentMessage.toDocument =
      Except.ok (ε := GraphError) (index.documents.map Document.withoutSymbols) := by
    rw [message, List.mapM_map]
    exact mapM_eq_pure_map (m := Except GraphError) fun d hd => Document.toDocument_message (h d hd)
  rw [Scip.IndexMessage.toIndex, hdocuments]
  rfl

/-- The encoding is decoded, unless the length of a document does not fit in 64 bits. -/
theorem ofScip_encode_message (h : index.IsSigned) : ofScip index.message.encode =
    if index.message.fields.all Wire.Field.isShort then .ok index.withoutSymbols
    else .error .scip := by
  rw [ofScip, Scip.IndexMessage.decode?_encode]
  by_cases hshort : index.message.fields.all Wire.Field.isShort
  · simp only [if_pos hshort, toIndex_message h]
  · simp only [if_neg hshort]

/-- Without coordinates past the signed range an index is encoded, with three numbers for a range on
one line, and decoded to itself but for the symbol tables, as long as its octets can be counted in
64 bits. -/
theorem ofScip_encode (h : index.IsSigned) : ∃ octets, index.encode? .scip = some octets ∧
    (∀ d ∈ index.documents, ∀ o ∈ d.occurrences, ∀ r ∈ o.ranges, r.start.line = r.stop.line →
      ∃ line start stop, r.toNumbers? = some [line, start, stop]) ∧
    (ofScip octets = .ok index.withoutSymbols ∨
      UInt64.size ≤ octets.length ∧ ofScip octets = .error .scip) := by
  refine ⟨index.message.encode, by rw [encode?, ofIndex?_eq h]; rfl, ?_, ?_⟩
  · intro d hd o ho r hr hline
    rw [SourceRange.toNumbers?_of_isSigned (h d hd o ho r hr), SourceRange.numbers,
      SourceRange.coordinates, if_pos hline]
    exact ⟨_, _, _, rfl⟩
  · rw [ofScip_encode_message h]
    split
    next => exact .inl rfl
    next hlong =>
      refine .inr ⟨Nat.not_lt.mp fun hlength => hlong ?_, rfl⟩
      exact Wire.isShort_of_length_write hlength

/-- Ranges on one line and on several, the greatest coordinate, all role bits at once, and a table
of symbols. -/
def mixed : Index :=
  ⟨[{ relativePath := "pkg/a.go"
      occurrences := [
        .definition Sample.caller (.ofCoordinates 0 5 0 6) (some (.ofCoordinates 0 0 5 1)),
        { symbol := "", roles := ⟨-1⟩, range := .ofCoordinates 1 0 2147483647 2147483647 },
        .reference Sample.callee (.ofCoordinates 2 300 2 301)]
      symbols := [{ symbol := Sample.caller, kind := "Function" }] },
    { relativePath := "" }]⟩

theorem length_encode_mixed : mixed.message.encode.length < UInt64.size := by cbv

theorem mixed_ofScip_encode : mixed.IsSigned ∧ ∃ octets, mixed.encode? .scip = some octets ∧
    (∀ d ∈ mixed.documents, ∀ o ∈ d.occurrences, ∀ r ∈ o.ranges, r.start.line = r.stop.line →
      ∃ line start stop, r.toNumbers? = some [line, start, stop]) ∧
    ofScip octets = .ok mixed.withoutSymbols := by
  have hsigned : mixed.IsSigned := by decide
  obtain ⟨octets, hencode, hlines, hdecode⟩ := ofScip_encode hsigned
  have hoctets : octets = mixed.message.encode := by
    rw [encode?, ofIndex?_eq hsigned, Option.map_some] at hencode
    exact (Option.some.inj hencode).symm
  refine ⟨hsigned, octets, hencode, hlines, hdecode.resolve_right ?_⟩
  rintro ⟨hlong, _⟩
  rw [hoctets] at hlong
  exact absurd length_encode_mixed (Nat.not_lt.mpr hlong)

end Index
end StaticCalls
