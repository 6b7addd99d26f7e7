import StaticCalls.Files.Path

/-! The parts of a path that is joined of two. The name of a file and its extension are those of the
second one, whatever the first one is. -/
namespace StaticCalls.Path

/-- A path that is empty or starts from the root has an empty first part. -/
def IsRelative (path : String) : Prop := (parts path).head? ≠ some ""

instance (path : String) : Decidable (IsRelative path) :=
  inferInstanceAs (Decidable ((parts path).head? ≠ some ""))

theorem parts_ne_nil (path : String) : parts path ≠ [] := by
  rw [parts, Ne, List.map_eq_nil_iff]
  exact List.splitOn_ne_nil _ _

theorem parts_append_slash (path path' : String) :
    parts (path ++ "/" ++ path') = parts path ++ parts path' := by
  have hslash : (path ++ "/" ++ path').toList = path.toList ++ '/' :: path'.toList := by simp
  rw [parts, hslash, List.splitOn_append_cons_self, List.map_append]
  rfl

theorem parts_of_not_mem {name : String} (h : '/' ∉ name.toList) : parts name = [name] := by
  rw [parts, List.splitOn_eq_singleton h, List.map_singleton, String.ofList_toList]

/-- Where the name counts from the directory, its parts come behind those of the directory, whose
slash at the end adds none. -/
theorem parts_join {directory name : String} (hdirectory : directory ≠ "")
    (hname : name.toList.head? ≠ some '/') : ∃ front,
      parts (join directory name) = front ++ parts name ∧
        (parts directory = front ∨ parts directory = front ++ [""]) := by
  rw [join]
  simp only [hdirectory, hname, decide_false, Bool.or_self, Bool.false_eq_true, if_false]
  split
  next hslash =>
    obtain ⟨before, hbefore⟩ := List.getLast?_eq_some_iff.mp hslash
    have hsplit : directory = String.ofList before ++ "/" := by
      apply String.toList_injective
      simpa using hbefore
    refine ⟨parts (String.ofList before), ?_, .inr ?_⟩
    · rw [hsplit, parts_append_slash]
    · have hempty := parts_append_slash (String.ofList before) ""
      rwa [String.append_empty, ← hsplit] at hempty
  next => exact ⟨parts directory, parts_append_slash directory name, .inl rfl⟩

theorem IsRelative.ne_empty {path : String} (h : IsRelative path) : path ≠ "" := by
  rintro rfl
  exact h (by decide)

theorem isRelative_join {directory name : String} (hdirectory : IsRelative directory)
    (hname : name.toList.head? ≠ some '/') : IsRelative (join directory name) := by
  obtain ⟨front, hparts, hfront⟩ := parts_join hdirectory.ne_empty hname
  cases front with
  | nil =>
    rcases hfront with hnil | hempty
    · exact absurd hnil (parts_ne_nil directory)
    · rw [IsRelative, hempty] at hdirectory
      exact absurd rfl hdirectory
  | cons first rest =>
    rw [IsRelative, hparts]
    rcases hfront with heq | heq
    · rwa [IsRelative, heq] at hdirectory
    · rwa [IsRelative, heq] at hdirectory

/-- Parts in front of a path matter to its last one only if that does not count. -/
theorem trim_append {reversed rest : List String} {part : String} (more : List String)
    (h : trim reversed = part :: rest) (hempty : part ≠ "") (hdot : part ≠ ".") :
    trim (reversed ++ more) = part :: (rest ++ more) := by
  fun_induction trim reversed with
  | case1 => cases h
  | case2 last =>
    cases h
    cases more with
    | nil => rfl
    | cons before more =>
      rw [List.singleton_append, trim, if_neg (by simp [hempty, hdot])]
      · rfl
      · exact List.cons_ne_nil _ _
  | case3 last before hne hskipped ih =>
    obtain ⟨next, before, rfl⟩ := List.exists_cons_of_ne_nil hne
    rw [List.cons_append, List.cons_append, trim, if_pos hskipped, ← List.cons_append]
    · exact ih h
    · exact List.cons_ne_nil _ _
  | case4 last before hne hcounts =>
    cases h
    obtain ⟨next, before, rfl⟩ := List.exists_cons_of_ne_nil hne
    rw [List.cons_append, List.cons_append, trim, if_neg hcounts]
    exact List.cons_ne_nil _ _

theorem fileName?_eq_some_iff {path part : String} : fileName? path = some part ↔
    (∃ rest, trim (reversedParts path) = part :: rest) ∧ part ≠ "" ∧ part ≠ "." ∧ part ≠ ".." := by
  rw [fileName?]
  cases htrim : trim (reversedParts path) with
  | nil => simp
  | cons last rest =>
    simp only [List.cons.injEq, exists_and_left, exists_eq', and_true]
    grind

theorem fileName?_join {directory name part : String} (h : fileName? name = some part) :
    fileName? (join directory name) = some part := by
  by_cases habsolute : directory = "" ∨ name.toList.head? = some '/'
  · have hjoin : join directory name = name := by
      rw [join, if_pos (by simpa using habsolute)]
    rw [hjoin, h]
  · rw [not_or] at habsolute
    obtain ⟨⟨rest, htrim⟩, hempty, hdot, hup⟩ := fileName?_eq_some_iff.mp h
    obtain ⟨front, hparts, _⟩ := parts_join habsolute.1 habsolute.2
    refine fileName?_eq_some_iff.mpr ⟨⟨rest ++ front.reverse, ?_⟩, hempty, hdot, hup⟩
    rw [reversedParts, hparts, List.reverse_append]
    exact trim_append front.reverse htrim hempty hdot

theorem exists_fileName?_of_extension? {path e : String} (h : extension? path = some e) :
    ∃ part, fileName? path = some part := by
  cases hname : fileName? path with
  | none => simp [extension?, hname] at h
  | some part => exact ⟨part, rfl⟩

/-- A file keeps its extension wherever it is put. -/
theorem extension?_join {directory name e : String} (h : extension? name = some e) :
    extension? (join directory name) = some e := by
  obtain ⟨part, hpart⟩ := exists_fileName?_of_extension? h
  rw [extension?, fileName?_join hpart, ← hpart]
  exact h

end StaticCalls.Path
