import StaticCalls.Proofs.Except
import StaticCalls.Proofs.Text.Octets
import StaticCalls.Proofs.Wire.Field
import StaticCalls.Scip.Reader
import StaticCalls.Scip.Writer

/-! Messages, written and decoded again. A message is decoded to the values of the fields that are
written for it, whichever of them are left out for being empty, and from these values it is put
together again (`decode?_encode`). -/
namespace StaticCalls.Scip
open Wire (Field)
variable {room : Nat} {type : MessageType} {fs gs : List Field} {vs ws : Fields}

/-- How a message decodes its fields, as far as they are written. -/
structure FieldReader (room : Nat) (type : MessageType) (read : Field → Option Fields) : Prop where
  decode?_eq : ∀ octets missing, decode? room type octets missing = (do
    let fields ← Wire.fields? missing octets
    let values ← fields.mapM read
    return values.flatten)
  text : ∀ {n}, type.fieldType? n = some .text → ∀ s : String,
    read ⟨n, .bytes s.toUTF8.toList⟩ = some [(n, .text s)]
  int32 : ∀ {n}, type.fieldType? n = some .int32 → ∀ v : Int32,
    read ⟨n, .varint (Wire.Varint.ofInt32 v)⟩ = some [(n, .int32 v)]
  int32s : ∀ {n}, type.fieldType? n = some .int32s → ∀ l : List Int32,
    read ⟨n, .bytes (l.flatMap fun v => Wire.Varint.write (Wire.Varint.ofInt32 v))⟩ =
      some [(n, .int32s l)]
  message : ∀ {n inner below vs}, room = below + 1 → type.fieldType? n = some (.message inner) →
    ∀ octets, decode? below inner octets 0 = some vs →
      read ⟨n, .bytes octets⟩ = some [(n, .message vs)]

theorem readAll_packed (l : List Int32) :
    Wire.Varint.readAll (l.flatMap fun v => Wire.Varint.write (Wire.Varint.ofInt32 v)) =
      some (l.map Wire.Varint.ofInt32) := by
  have hlt : ∀ n ∈ l.map Wire.Varint.ofInt32, n < UInt64.size := by
    intro n hn
    obtain ⟨v, _, rfl⟩ := List.mem_map.mp hn
    exact Wire.Varint.ofInt32_lt v
  rw [← Wire.Varint.readAll_flatMap_write hlt, List.flatMap_map]

theorem mapM_toInt32? (l : List Int32) :
    (l.map Wire.Varint.ofInt32).mapM Wire.Varint.toInt32? = some l := by
  have hback : ∀ v ∈ l, (Wire.Varint.toInt32? ∘ Wire.Varint.ofInt32) v = pure (id v) :=
    fun v _ => Wire.Varint.toInt32?_ofInt32 v
  rw [List.mapM_map, mapM_eq_pure_map hback, List.map_id]
  rfl

theorem exists_fieldReader (room : Nat) (type : MessageType) :
    ∃ read, FieldReader room type read := by
  apply Exists.intro
  constructor
  case decode?_eq =>
    intro octets missing
    rw [decode?]
  case text =>
    intro n h s
    simp only [h, toList_toUTF8, fromUTF8?_octets]
    rfl
  case int32 =>
    intro n h v
    simp only [h, Wire.Varint.toInt32?_ofInt32]
    rfl
  case int32s =>
    intro n h l
    simp only [h, readAll_packed, Option.bind_eq_bind, Option.bind_some, mapM_toInt32?]
    rfl
  case message =>
    rintro n inner below vs rfl h octets hdecode
    simp only [h, hdecode]
    rfl

/-- All known numbers fit in a tag. -/
theorem bounds_of_fieldType? {n : Nat} {t : FieldType} (h : type.fieldType? n = some t) :
    0 < n ∧ n < 2 ^ 29 := by
  unfold MessageType.fieldType? at h
  split at h <;> first | exact ⟨by decide, by decide⟩ | cases h

/-! ### Lists of fields -/

/-- The fields are as they can be written, and they are decoded to the values. -/
structure Reads (room : Nat) (type : MessageType) (fs : List Field) (vs : Fields) : Prop where
  plain : ∀ f ∈ fs, f.IsPlain
  values : ∀ {read}, FieldReader room type read → (fs.mapM read).map List.flatten = some vs

namespace Reads

theorem nil : Reads room type [] [] where
  plain := by simp
  values _ := rfl

theorem append (h : Reads room type fs vs) (h' : Reads room type gs ws) :
    Reads room type (fs ++ gs) (vs ++ ws) where
  plain := List.forall_mem_append.mpr ⟨h.plain, h'.plain⟩
  values hread := by
    obtain ⟨l, hl, rfl⟩ := Option.map_eq_some_iff.mp (h.values hread)
    obtain ⟨l', hl', rfl⟩ := Option.map_eq_some_iff.mp (h'.values hread)
    rw [List.mapM_append, hl, hl', ← List.flatten_append]
    rfl

theorem singleton {f : Field} (hplain : f.IsPlain)
    (hvalues : ∀ {read}, FieldReader room type read → read f = some vs) :
    Reads room type [f] vs where
  plain := by rwa [List.forall_mem_singleton]
  values hread := by simp [hvalues hread]

/-- A message is decoded to the values of its fields. -/
theorem decode?_write (h : Reads room type fs vs) (hshort : fs.all Field.isShort) (missing : Nat) :
    decode? room type (Wire.write fs) missing = some vs := by
  obtain ⟨read, hread⟩ := exists_fieldReader room type
  obtain ⟨l, hl, rfl⟩ := Option.map_eq_some_iff.mp (h.values hread)
  rw [hread.decode?_eq, Wire.fields?_write h.plain, if_pos hshort]
  simp [hl]

end Reads

/-- A message with a field whose length does not fit in 64 bits cannot be read. -/
theorem decode?_of_long (hplain : ∀ f ∈ fs, f.IsPlain) (hlong : ¬ fs.all Field.isShort)
    (missing : Nat) : decode? room type (Wire.write fs) missing = none := by
  obtain ⟨read, hread⟩ := exists_fieldReader room type
  rw [hread.decode?_eq, Wire.fields?_write hplain, if_neg hlong]
  rfl

def textValues (n : Nat) (s : String) : Fields := if s = "" then [] else [(n, .text s)]

def int32Values (n : Nat) (v : Int32) : Fields := if v = 0 then [] else [(n, .int32 v)]

def int32sValues (n : Nat) (l : List Int32) : Fields := if l.isEmpty then [] else [(n, .int32s l)]

section
variable {n : Nat}

theorem reads_textField (h : type.fieldType? n = some .text) (s : String) :
    Reads room type (textField n s) (textValues n s) := by
  obtain ⟨hpos, hlt⟩ := bounds_of_fieldType? h
  unfold textField textValues
  split
  · exact .nil
  · exact .singleton ⟨hpos, hlt, rfl⟩ fun hread => hread.text h s

theorem reads_int32Field (h : type.fieldType? n = some .int32) (v : Int32) :
    Reads room type (int32Field n v) (int32Values n v) := by
  obtain ⟨hpos, hlt⟩ := bounds_of_fieldType? h
  unfold int32Field int32Values
  split
  · exact .nil
  · exact .singleton ⟨hpos, hlt, Wire.Varint.ofInt32_lt v⟩ fun hread => hread.int32 h v

theorem reads_int32sField (h : type.fieldType? n = some .int32s) (l : List Int32) :
    Reads room type (int32sField n l) (int32sValues n l) := by
  obtain ⟨hpos, hlt⟩ := bounds_of_fieldType? h
  unfold int32sField int32sValues
  split
  · exact .nil
  · exact .singleton ⟨hpos, hlt, rfl⟩ fun hread => hread.int32s h l

theorem reads_messageFields {α : Type} {inner : MessageType}
    (h : type.fieldType? n = some (.message inner)) {fields : α → List Field} {values : α → Fields}
    {l : List α} (hl : ∀ a ∈ l, decode? room inner (Wire.write (fields a)) 0 = some (values a)) :
    Reads (room + 1) type (l.map fun a => messageField n (fields a))
      (l.map fun a => (n, .message (values a))) := by
  obtain ⟨hpos, hlt⟩ := bounds_of_fieldType? h
  induction l with
  | nil => exact .nil
  | cons a rest ih =>
    rw [List.forall_mem_cons] at hl
    have hfirst : Reads (room + 1) type [messageField n (fields a)] [(n, .message (values a))] :=
      .singleton ⟨hpos, hlt, rfl⟩ fun hread => hread.message rfl h _ hl.1
    exact hfirst.append (ih hl.2)

end

/-! ### Values of a field -/

namespace Fields
variable {m n : Nat}

@[simp] theorem values_append (a b : Fields) (n : Nat) : (a ++ b).values n = a.values n ++ b.values n := by
  rw [values, List.filter_append, List.map_append]
  rfl

@[simp] theorem values_textValues (s : String) :
    values (textValues m s) n = if m = n then (if s = "" then [] else [.text s]) else [] := by
  by_cases hs : s = "" <;> by_cases hm : m = n <;> simp [textValues, values, hs, hm]

@[simp] theorem values_int32Values (v : Int32) :
    values (int32Values m v) n = if m = n then (if v = 0 then [] else [.int32 v]) else [] := by
  by_cases hv : v = 0 <;> by_cases hm : m = n <;> simp [int32Values, values, hv, hm]

@[simp] theorem values_int32sValues (l : List Int32) :
    values (int32sValues m l) n = if m = n then (if l = [] then [] else [.int32s l]) else [] := by
  by_cases hl : l = [] <;> by_cases hm : m = n <;> simp [int32sValues, values, hl, hm]

@[simp] theorem values_messages {α : Type} (inner : α → Fields) (l : List α) :
    values (l.map fun a => (m, .message (inner a))) n =
      if m = n then l.map fun a => .message (inner a) else [] := by
  by_cases hm : m = n <;> simp [values, List.filter_map, Function.comp_def, hm]

variable {fields : Fields}

theorem text_eq {s : String} (h : fields.values n = if s = "" then [] else [.text s]) :
    fields.text n = s := by
  rw [text, h]
  split
  next hs => exact hs.symm
  next => rfl

theorem int32_eq {v : Int32} (h : fields.values n = if v = 0 then [] else [.int32 v]) :
    fields.int32 n = v := by
  rw [int32, h]
  split
  next hv => exact hv.symm
  next => rfl

theorem int32s_eq {l : List Int32} (h : fields.values n = if l = [] then [] else [.int32s l]) :
    fields.int32s n = l := by
  rw [int32s, h]
  split
  next hl => exact hl.symm
  next => simp

theorem messages_eq {α : Type} {inner : α → Fields} {l : List α}
    (h : fields.values n = l.map fun a => .message (inner a)) : fields.messages n = l.map inner := by
  rw [messages, h, List.filterMap_map, ← List.filterMap_eq_map]
  rfl

end Fields

/-! ### Messages -/

namespace OccurrenceMessage

def values (o : OccurrenceMessage) : Fields :=
  int32sValues 1 o.range ++ textValues 2 o.symbol ++ int32Values 3 o.symbolRoles ++
    int32sValues 7 o.enclosingRange

theorem reads (room : Nat) (o : OccurrenceMessage) : Reads room .occurrence o.fields o.values :=
  (((reads_int32sField rfl _).append (reads_textField rfl _)).append
    (reads_int32Field rfl _)).append (reads_int32sField rfl _)

theorem ofFields_values (o : OccurrenceMessage) : ofFields o.values = o := by
  have hrange : o.values.int32s 1 = o.range := Fields.int32s_eq (by simp [values])
  have hsymbol : o.values.text 2 = o.symbol := Fields.text_eq (by simp [values])
  have hroles : o.values.int32 3 = o.symbolRoles := Fields.int32_eq (by simp [values])
  have henclosing : o.values.int32s 7 = o.enclosingRange := Fields.int32s_eq (by simp [values])
  rw [ofFields, hrange, hsymbol, hroles, henclosing]

end OccurrenceMessage

namespace SymbolMessage

def values (s : SymbolMessage) : Fields :=
  textValues 1 s.symbol ++ int32Values 5 s.kind ++ textValues 6 s.displayName

theorem reads (room : Nat) (s : SymbolMessage) : Reads room .symbolInformation s.fields s.values :=
  ((reads_textField rfl _).append (reads_int32Field rfl _)).append (reads_textField rfl _)

theorem ofFields_values (s : SymbolMessage) : ofFields s.values = s := by
  have hsymbol : s.values.text 1 = s.symbol := Fields.text_eq (by simp [values])
  have hkind : s.values.int32 5 = s.kind := Fields.int32_eq (by simp [values])
  have hname : s.values.text 6 = s.displayName := Fields.text_eq (by simp [values])
  rw [ofFields, hsymbol, hkind, hname]

end SymbolMessage

/-- No field of an inner message is too long if none of the outer one is. -/
theorem isShort_of_messageField_mem {n : Nat} (h : gs.all Field.isShort)
    (hmem : messageField n fs ∈ gs) : fs.all Field.isShort := by
  have hlength : (Wire.write fs).length < UInt64.size := by
    simpa [messageField, Field.isShort] using List.all_eq_true.mp h _ hmem
  exact Wire.isShort_of_length_write hlength

namespace DocumentMessage

def values (d : DocumentMessage) : Fields :=
  textValues 1 d.relativePath ++ d.occurrences.map (fun o => (2, .message o.values)) ++
    d.symbols.map fun s => (3, .message s.values)

theorem reads (room : Nat) {d : DocumentMessage} (h : d.fields.all Field.isShort) :
    Reads (room + 1) .document d.fields d.values := by
  have hoccurrences : ∀ o ∈ d.occurrences,
      decode? room .occurrence (Wire.write o.fields) 0 = some o.values := by
    intro o ho
    have hmem : messageField 2 o.fields ∈ d.fields :=
      List.mem_append_left _ (List.mem_append_right _ (List.mem_map.mpr ⟨o, ho, rfl⟩))
    exact (o.reads room).decode?_write (isShort_of_messageField_mem h hmem) 0
  have hsymbols : ∀ s ∈ d.symbols,
      decode? room .symbolInformation (Wire.write s.fields) 0 = some s.values := by
    intro s hs
    have hmem : messageField 3 s.fields ∈ d.fields :=
      List.mem_append_right _ (List.mem_map.mpr ⟨s, hs, rfl⟩)
    exact (s.reads room).decode?_write (isShort_of_messageField_mem h hmem) 0
  exact ((reads_textField rfl _).append (reads_messageFields rfl hoccurrences)).append
    (reads_messageFields rfl hsymbols)

theorem ofFields_values (d : DocumentMessage) : ofFields d.values = d := by
  have hpath : d.values.text 1 = d.relativePath := Fields.text_eq (by simp [values])
  have hoccurrences : d.values.messages 2 = d.occurrences.map OccurrenceMessage.values :=
    Fields.messages_eq (by simp [values])
  have hsymbols : d.values.messages 3 = d.symbols.map SymbolMessage.values :=
    Fields.messages_eq (by simp [values])
  rw [ofFields, hpath, hoccurrences, hsymbols, List.map_map, List.map_map]
  simp only [Function.comp_def, OccurrenceMessage.ofFields_values, SymbolMessage.ofFields_values,
    List.map_id']

end DocumentMessage

namespace IndexMessage

def values (i : IndexMessage) : Fields := i.documents.map fun d => (2, .message d.values)

theorem ofFields_values (i : IndexMessage) : ofFields i.values = i := by
  have hdocuments : i.values.messages 2 = i.documents.map DocumentMessage.values :=
    Fields.messages_eq (by simp [values])
  rw [ofFields, hdocuments, List.map_map]
  simp only [Function.comp_def, DocumentMessage.ofFields_values, List.map_id']

/-- An index is decoded from its encoding, unless the length of a document does not fit in 64 bits,
which breaks the encoding. -/
theorem decode?_encode (i : IndexMessage) :
    decode? i.encode = if i.fields.all Field.isShort then some i else none := by
  rw [decode?, encode]
  by_cases h : i.fields.all Field.isShort
  · have hdocuments : ∀ d ∈ i.documents,
        Scip.decode? 99 .document (Wire.write d.fields) 0 = some d.values := by
      intro d hd
      have hshort : d.fields.all Field.isShort :=
        isShort_of_messageField_mem h (List.mem_map.mpr ⟨d, hd, rfl⟩)
      exact (DocumentMessage.reads 98 hshort).decode?_write hshort 0
    have hreads : Reads maxNesting .index i.fields i.values := reads_messageFields rfl hdocuments
    rw [hreads.decode?_write h, if_pos h, Option.map_some, ofFields_values]
  · have hplain : ∀ f ∈ i.fields, f.IsPlain := by
      intro f hf
      obtain ⟨d, _, rfl⟩ := List.mem_map.mp hf
      exact ⟨by decide, by decide, rfl⟩
    rw [decode?_of_long hplain h, if_neg h]
    rfl

end IndexMessage
end StaticCalls.Scip
