import StaticCalls.Json.Record
import StaticCalls.Rendition.Index

/-! Records that are written are read. Members stand in the order of the fields, those that hold
nothing left out, so that none is unknown and none stands twice. -/
namespace StaticCalls

namespace Json
variable {α : Type} {names : List String} {members : List (String × Json)} {room : Nat}

theorem record?_object (hkeys : (members.map Prod.fst).Sublist names) (hnames : names.Nodup) :
    record? names (room + 1) (.object members) = some ⟨members, room⟩ := by
  have hknown : members.filter (fun m => names.contains m.1) = members := by
    rw [List.filter_eq_self]
    intro m hm
    rw [List.contains_iff_mem]
    exact hkeys.subset (List.mem_map_of_mem hm)
  rw [record?]
  simp only [hknown, hnames.sublist hkeys, if_true]

theorem record?_zero (names : List String) (v : Json) : record? names 0 v = none := by
  cases v <;> rfl

theorem keys_optionalMember (name : String) (f : α → Json) (value : Option α) :
    ((optionalMember name f value).map Prod.fst).Sublist [name] := by
  cases value with
  | none => exact List.nil_sublist _
  | some a => exact List.Sublist.refl _

@[simp] theorem lookup_optionalMember (name : String) (f : α → Json) (value : Option α) :
    (optionalMember name f value).lookup name = value.map f := by
  cases value with
  | none => rfl
  | some a => exact List.lookup_cons_self

@[simp] theorem lookup_optionalMember_of_ne {name key : String} (h : key ≠ name) (f : α → Json)
    (value : Option α) : (optionalMember name f value).lookup key = none := by
  cases value with
  | none => rfl
  | some a => rw [optionalMember, List.lookup_cons, beq_eq_false_iff_ne.mpr h, List.lookup_nil]

/-- A field that is left out when it holds nothing reads as what it was written of. -/
theorem Record.optional_eq {r : Record} {name : String} {f : α → Json} {value : Option α}
    {read : Decoder α} (hfield : r.field? name = value.map f) (hnull : ∀ a, f a ≠ .null)
    (hread : ∀ a ∈ value, read r.room (f a) = some a) : r.optional name read = some value := by
  rw [Record.optional, hfield]
  cases value with
  | none => rfl
  | some a =>
    simp only [Option.map_some]
    split
    next h => exact absurd (Option.some.inj h) (hnull a)
    next h =>
      rw [← Option.some.inj h, hread a rfl]
      rfl
    next h => cases h

theorem Record.required_eq {r : Record} {name : String} {v : Json} {a : α} {read : Decoder α}
    (hfield : r.field? name = some v) (hread : read r.room v = some a) :
    r.required name read = some a := by
  rw [Record.required, hfield]
  exact hread

theorem Record.withDefault_eq {r : Record} {name : String} {v : Json} {a default : α}
    {read : Decoder α} (hfield : r.field? name = some v) (hread : read r.room v = some a) :
    r.withDefault name default read = some a := by
  rw [Record.withDefault, hfield]
  exact hread

@[simp] theorem string?_string (room : Nat) (s : String) : string? room (.string s) = some s := rfl

@[simp] theorem uint32?_nat (room : Nat) (n : UInt32) : uint32? room (.nat n.toNat) = some n := by
  show (if n.toNat < UInt32.size then some (UInt32.ofNat n.toNat) else none) = some n
  rw [if_pos n.toNat_lt, UInt32.ofNat_toNat]

theorem int32?_integer (room : Nat) (n : Int32) : int32? room (.integer n.toInt) = some n := by
  rw [int32?, if_pos]
  · exact congrArg some n.ofInt_toInt
  · rw [Bool.and_eq_true, decide_eq_true_iff, decide_eq_true_iff]
    exact ⟨n.minValue_le_toInt, n.toInt_le⟩

theorem size?_nat (room : Nat) {n : Nat} (h : n < UInt64.size) : size? room (.nat n) = some n :=
  if_pos h

/-- Wherever it may enter so many levels, the reader comes back to what was written. -/
def Reads (read : Decoder α) (write : α → Json) (levels : Nat) : Prop :=
  ∀ (a : α) (room : Nat), read (room + levels) (write a) = some a

namespace Reads
variable {read : Decoder α} {write : α → Json} {levels : Nat}

/-- A list takes one level more than its items. -/
theorem list (h : Reads read write levels) : Reads (list? read) (Json.list write) (levels + 1) := by
  intro l room
  show (l.map write).mapM (read (room + levels)) = some l
  have hitems : read (room + levels) ∘ write = pure := funext fun a => h a room
  rw [List.mapM_map, hitems, List.mapM_pure, List.map_id']
  rfl

theorem mono (h : Reads read write levels) (more : Nat) : Reads read write (levels + more) := by
  intro a room
  rw [Nat.add_comm levels, ← Nat.add_assoc]
  exact h a (room + more)

end Reads

end Json

namespace SourceRange

theorem toJson_ne_null (r : SourceRange) : r.toJson ≠ .null := by
  rintro ⟨⟩

/-- A range takes one level. -/
theorem reads : Json.Reads ofJson? toJson 1 := by
  intro r room
  rw [ofJson?, toJson, Json.record?_object]
  · simp [Json.Record.required, Json.Record.field?, List.lookup_cons, ofCoordinates]
  · exact List.Sublist.refl _
  · decide

theorem ofJson?_zero (v : Json) : ofJson? 0 v = none := by
  rw [ofJson?, Json.record?_zero]
  rfl

end SourceRange
end StaticCalls
