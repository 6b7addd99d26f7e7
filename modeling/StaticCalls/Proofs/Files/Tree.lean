import StaticCalls.Files.Tree
import StaticCalls.Proofs.Files.Path
import StaticCalls.Proofs.Files.System

/-! A tree of files after a change at one place. A file never takes the place of a directory, so
that every path still leads where it led and what has been written is read (`read_of_write`). -/
namespace StaticCalls.FileTree
variable {t t' : FileTree} {place other start : Place} {entry : FileEntry} {path : String}
  {octets : List UInt8} {parts : List String}

theorem at?_of_ne_nil (h : place ≠ []) : t.at? place = t.entries.get? (key place) := by
  rw [at?, if_neg]
  simpa using h

theorem at?_put_self (h : place ≠ []) : (t.put place entry).at? place = some entry := by
  rw [at?_of_ne_nil h, put, StringMap.get?_insert, if_pos rfl]

theorem ne_nil_of_at?_ne (h : t.at? place ≠ some .directory) : place ≠ [] := by
  rintro rfl
  exact h rfl

/-- Directories stay where they are when an entry is put elsewhere. -/
theorem at?_put_of_directory (hplace : t.at? place ≠ some .directory)
    (h : t.at? other = some .directory) : (t.put place entry).at? other = some .directory := by
  by_cases hroot : other = []
  · rw [hroot]
    rfl
  · have hne := ne_nil_of_at?_ne hplace
    rw [at?_of_ne_nil hroot] at h
    rw [at?_of_ne_nil hne] at hplace
    have hkey : key place ≠ key other := by
      intro heq
      exact hplace (heq ▸ h)
    rw [at?_of_ne_nil hroot, put, StringMap.get?_insert, if_neg hkey, h]

/-! ### Ways through the tree -/

theorem follow_cons (t : FileTree) (start : Place) (part : String) (rest : List String) :
    t.follow start (part :: rest) = (t.follow start [part]).bind fun next => t.follow next rest := by
  simp only [follow]
  cases t.at? start with
  | none => rfl
  | some entry =>
    cases entry with
    | file octets => rfl
    | directory =>
      dsimp only
      split
      next => rfl
      next =>
        split
        next => split <;> rfl
        next => rfl

theorem follow_append (t : FileTree) (start : Place) (parts rest : List String) :
    t.follow start (parts ++ rest) = (t.follow start parts).bind fun next => t.follow next rest := by
  induction parts generalizing start with
  | nil => rfl
  | cons part parts ih =>
    rw [List.cons_append, follow_cons, follow_cons t start part parts]
    cases t.follow start [part] with
    | error e => rfl
    | ok next => exact ih next

/-- A way leads on only from a directory. -/
theorem at?_of_follow_cons {part : String} {rest : List String}
    (h : t.follow start (part :: rest) = .ok place) : t.at? start = some .directory := by
  rw [follow] at h
  split at h
  next => cases h
  next => cases h
  next hdirectory => exact hdirectory

/-- Of the parts of a way only a name leads to another place. -/
theorem follow_name {name : String} (hempty : name ≠ "") (hdot : name ≠ ".") (hup : name ≠ "..")
    (h : t.at? start = some .directory) : t.follow start [name] = .ok (start ++ [name]) := by
  simp only [follow, h, hempty, hdot, hup, decide_false, Bool.or_self, Bool.false_eq_true, if_false]

/-- A slash at the end leads nowhere else. -/
theorem follow_of_slash (h : t.follow start (parts ++ [""]) = .ok place) :
    t.follow start parts = .ok place := by
  rw [follow_append] at h
  cases hnext : t.follow start parts with
  | error e =>
    rw [hnext] at h
    cases h
  | ok next =>
    rw [hnext] at h
    have hlast : t.follow next [""] = .ok place := h
    rw [follow, at?_of_follow_cons hlast] at hlast
    exact hlast

/-- All directories on the way are still there, since the entry takes the place of none. -/
theorem follow_put (hplace : t.at? other ≠ some .directory)
    (h : t.follow start parts = .ok place) :
    (t.put other entry).follow start parts = .ok place := by
  induction parts generalizing start with
  | nil => exact h
  | cons part rest ih =>
    have hdirectory := at?_of_follow_cons h
    have hstep : (t.put other entry).follow start [part] = t.follow start [part] := by
      simp only [follow, hdirectory, at?_put_of_directory hplace hdirectory]
    rw [follow_cons] at h ⊢
    rw [hstep]
    cases hnext : t.follow start [part] with
    | error e => rw [hnext] at h; cases h
    | ok next => rw [hnext] at h; exact ih h

theorem locate_put (hplace : t.at? other ≠ some .directory) (h : t.locate path = .ok place) :
    (t.put other entry).locate path = .ok place := by
  rw [locate] at h ⊢
  split at h
  next => exact h
  next => exact follow_put hplace h

theorem locate_of_isRelative (h : Path.IsRelative path) :
    t.locate path = t.follow [] (Path.parts path) := by
  rw [Path.IsRelative] at h
  rw [locate]
  split
  next heq => rw [heq] at h; exact absurd rfl h
  next => rfl

/-! ### Writing and reading -/

theorem write_eq_ok (h : t.write path octets = .ok t') : ∃ place, t.locate path = .ok place ∧
    t.at? place ≠ some .directory ∧ t' = t.put place (.file octets) := by
  rw [write] at h
  split at h
  next => split at h <;> cases h
  next =>
    cases hlocate : t.locate path with
    | error e => rw [hlocate] at h; cases h
    | ok place =>
      simp only [hlocate] at h
      split at h
      next => cases h
      next hfree => exact ⟨place, rfl, hfree, (Except.ok.inj h).symm⟩

theorem lookup_of_write (h : t.write path octets = .ok t') :
    t'.lookup path = .ok (.file octets) := by
  obtain ⟨place, hlocate, hfree, rfl⟩ := write_eq_ok h
  simp only [lookup, locate_put hfree hlocate, at?_put_self (ne_nil_of_at?_ne hfree)]

/-- What has been written is read. -/
theorem read_of_write (h : t.write path octets = .ok t') : t'.read path = .ok octets := by
  rw [read, lookup_of_write h]

theorem isThere_of_write (h : t.write path octets = .ok t') : t'.isThere path := by
  rw [isThere, lookup_of_write h]
  rfl

/-! ### The tree as a file system -/

theorem passive_system : system.Passive where
  isThere _ _ := rfl
  read _ _ := rfl

theorem run_write (t : FileTree) (path : String) (octets : List UInt8) :
    (system.write path octets).run t =
      match t.write path octets with
      | .ok t' => (.ok (), t')
      | .error e => (.error e, t) := rfl

theorem readsBack_system : system.ReadsBack := by
  intro path octets t t' h
  have hwrite : t.write path octets = .ok t' := by
    rw [run_write] at h
    split at h
    next hok => rw [hok, (Prod.mk.inj h).2]
    next => cases (Prod.mk.inj h).1
  refine ⟨?_, ?_⟩
  · show (t'.isThere path, t') = _
    rw [isThere_of_write hwrite]
  · show (t'.read path, t') = _
    rw [read_of_write hwrite]

/-! ### Writing into a directory -/

/-- The directory is there, and the name is one of a file that is in it or can be made in it. -/
structure Admits (t : FileTree) (directory name : String) : Prop where
  present : directory = "" ∨ Path.IsRelative directory ∧ t.isDirectory directory
  slashless : '/' ∉ name.toList
  named : name ≠ "" ∧ name ≠ "." ∧ name ≠ ".."
  free : ¬ t.isDirectory (Path.join directory name)

theorem isDirectory_iff : t.isDirectory path ↔
    ∃ place, t.locate path = .ok place ∧ t.at? place = some .directory := by
  rw [isDirectory, lookup]
  cases t.locate path with
  | error e => simp
  | ok place =>
    cases hentry : t.at? place with
    | none => simp [hentry]
    | some entry => cases entry <;> simp [hentry]

namespace Admits
variable {directory name : String}

theorem head?_ne (h : t.Admits directory name) : name.toList.head? ≠ some '/' :=
  fun hhead => h.slashless (List.mem_of_head? hhead)

theorem exists_parts (h : t.Admits directory name) :
    ∃ front, Path.parts (Path.join directory name) = front ++ [name] := by
  rw [← Path.parts_of_not_mem h.slashless]
  by_cases hdirectory : directory = ""
  · exact ⟨[], by rw [hdirectory, Path.join]; rfl⟩
  · obtain ⟨front, hparts, _⟩ := Path.parts_join hdirectory h.head?_ne
    exact ⟨front, hparts⟩

/-- The way to the file leads through the directory. -/
theorem locate_join (h : t.Admits directory name) :
    ∃ place, t.locate (Path.join directory name) = .ok (place ++ [name]) := by
  obtain ⟨hempty, hdot, hup⟩ := h.named
  rcases h.present with rfl | ⟨hrelative, hdirectory⟩
  · have hparts := Path.parts_of_not_mem h.slashless
    have hname : Path.IsRelative name := by
      rw [Path.IsRelative, hparts]
      simpa using hempty
    have hjoin : Path.join "" name = name := rfl
    rw [hjoin, locate_of_isRelative hname, hparts]
    exact ⟨[], follow_name hempty hdot hup rfl⟩
  · obtain ⟨place, hlocate, hplace⟩ := isDirectory_iff.mp hdirectory
    obtain ⟨front, hparts, hfront⟩ := Path.parts_join hrelative.ne_empty h.head?_ne
    rw [locate_of_isRelative hrelative] at hlocate
    have hfollow : t.follow [] front = .ok place := by
      rcases hfront with heq | heq
      · rwa [heq] at hlocate
      · rw [heq] at hlocate
        exact follow_of_slash hlocate
    rw [locate_of_isRelative (Path.isRelative_join hrelative h.head?_ne), hparts,
      Path.parts_of_not_mem h.slashless, follow_append, hfollow]
    exact ⟨place, follow_name hempty hdot hup hplace⟩

theorem holder?_join (h : t.Admits directory name) : holder? (Path.join directory name) = none := by
  obtain ⟨front, hparts⟩ := h.exists_parts
  rw [holder?, Path.reversedParts, hparts, List.reverse_append, List.reverse_singleton,
    List.singleton_append]
  split
  next heq => exact absurd (List.cons.inj heq).1 h.named.1
  next => rfl

theorem exists_write (h : t.Admits directory name) (octets : List UInt8) :
    ∃ t', t.write (Path.join directory name) octets = .ok t' := by
  obtain ⟨place, hlocate⟩ := h.locate_join
  have hfree : t.at? (place ++ [name]) ≠ some .directory := by
    intro hdirectory
    exact h.free (isDirectory_iff.mpr ⟨_, hlocate, hdirectory⟩)
  refine ⟨t.put (place ++ [name]) (.file octets), ?_⟩
  rw [write, h.holder?_join]
  simp only [hlocate]

end Admits
end StaticCalls.FileTree
