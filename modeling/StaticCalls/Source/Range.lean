/-! Positions and ranges of source text. Lines and characters count from zero; positions are
ordered line first, and a range contains another when it covers both of its ends. -/
namespace StaticCalls

structure Position where
  line : UInt32
  character : UInt32
deriving DecidableEq, Repr, Inhabited

namespace Position
variable {p q : Position}

instance : Ord Position where
  compare p q := (compare p.line q.line).then (compare p.character q.character)

/-- The place of a position among all positions, as one number. -/
def rank (p : Position) : Nat := p.line.toNat * 0x100000000 + p.character.toNat

instance : LE Position := ⟨fun p q => (compare p q).isLE⟩

instance : LT Position := ⟨fun p q => (compare p q).isLT⟩

instance : DecidableLE Position := fun p q => inferInstanceAs (Decidable ((compare p q).isLE = true))

instance : DecidableLT Position := fun p q => inferInstanceAs (Decidable ((compare p q).isLT = true))

theorem compare_eq_compare_toNat (a b : UInt32) : compare a b = compare a.toNat b.toNat := by
  show compareOfLessAndEq a b = compareOfLessAndEq a.toNat b.toNat
  simp only [compareOfLessAndEq, UInt32.lt_iff_toNat_lt, ← UInt32.toNat_inj]

theorem compare_eq_compare_rank (p q : Position) : compare p q = compare p.rank q.rank := by
  obtain ⟨l, c⟩ := p
  obtain ⟨l', c'⟩ := q
  have hc := c.toNat_lt
  have hc' := c'.toNat_lt
  show (compare l l').then (compare c c') = _
  rw [compare_eq_compare_toNat l, compare_eq_compare_toNat c]
  simp only [rank]
  rcases Nat.lt_trichotomy l.toNat l'.toNat with hl | hl | hl
  · rw [Nat.compare_eq_lt.mpr hl]
    exact (Nat.compare_eq_lt.mpr (by omega)).symm
  · rw [Nat.compare_eq_eq.mpr hl]
    show compare c.toNat c'.toNat = _
    rcases Nat.lt_trichotomy c.toNat c'.toNat with hcc | hcc | hcc
    · rw [Nat.compare_eq_lt.mpr hcc, Nat.compare_eq_lt.mpr (by omega)]
    · rw [Nat.compare_eq_eq.mpr hcc, Nat.compare_eq_eq.mpr (by omega)]
    · rw [Nat.compare_eq_gt.mpr hcc, Nat.compare_eq_gt.mpr (by omega)]
  · rw [Nat.compare_eq_gt.mpr hl]
    exact (Nat.compare_eq_gt.mpr (by omega)).symm

theorem le_iff_rank_le : p ≤ q ↔ p.rank ≤ q.rank := by
  show (compare p q).isLE = true ↔ _
  rw [compare_eq_compare_rank, Nat.isLE_compare]

theorem lt_iff_rank_lt : p < q ↔ p.rank < q.rank := by
  show (compare p q).isLT = true ↔ _
  simp [compare_eq_compare_rank, Ordering.isLT_iff_eq_lt, Nat.compare_eq_lt]

theorem rank_inj : p.rank = q.rank ↔ p = q := by
  refine ⟨fun h => ?_, fun h => h ▸ rfl⟩
  obtain ⟨l, c⟩ := p
  obtain ⟨l', c'⟩ := q
  have hc := c.toNat_lt
  have hc' := c'.toNat_lt
  simp only [rank] at h
  have hl : l.toNat = l'.toNat := by omega
  have hcc : c.toNat = c'.toNat := by omega
  rw [UInt32.toNat_inj.mp hl, UInt32.toNat_inj.mp hcc]

end Position

/-- A span of source text; `stop` is its end. -/
structure SourceRange where
  start : Position
  stop : Position
deriving DecidableEq, Repr, Inhabited

namespace SourceRange

/-- Written line, character, line, character. -/
def ofCoordinates (startLine startCharacter endLine endCharacter : UInt32) : SourceRange :=
  ⟨⟨startLine, startCharacter⟩, ⟨endLine, endCharacter⟩⟩

/-- Both ends count: a range contains itself and each range that touches its borders from within. -/
def contains (outer inner : SourceRange) : Bool :=
  outer.start ≤ inner.start && inner.stop ≤ outer.stop

/-- Three numbers `line, start, end` span one line and four are the two ends in full. No number
may be negative. -/
def ofNumbers? (values : List Int32) : Option SourceRange :=
  if values.all (0 ≤ ·) then
    match values.map Int32.toUInt32 with
    | [line, start, stop] => some (ofCoordinates line start line stop)
    | [startLine, start, stopLine, stop] => some (ofCoordinates startLine start stopLine stop)
    | _ => none
  else none

/-- The shorter of the two forms; none when a coordinate is past the signed range. -/
def toNumbers? (r : SourceRange) : Option (List Int32) :=
  let values :=
    if r.start.line = r.stop.line then [r.start.line, r.start.character, r.stop.character]
    else [r.start.line, r.start.character, r.stop.line, r.stop.character]
  if values.all (·.toNat ≤ Int32.maxValue.toNatClampNeg) then some (values.map UInt32.toInt32) else none

end SourceRange
end StaticCalls
