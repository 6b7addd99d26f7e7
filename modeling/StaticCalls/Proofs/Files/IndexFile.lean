import StaticCalls.Proofs.Files.Tree
import StaticCalls.Proofs.Rendition.Index

/-! Indexes that are saved under a JSON name and loaded again. The name alone decides the format, in
whatever directory the file is, and JSON leaves nothing of an index out (`keeps_json`). -/
namespace StaticCalls

namespace IndexFormat

/-- The extension of the name is `json`, in small letters or large ones. -/
def IsJsonName (name : String) : Prop :=
  ∃ e, Path.extension? name = some e ∧ e.toList.map Char.toLower = ['j', 's', 'o', 'n']

theorem ofPath_eq_json_iff {path : String} : ofPath path = .json ↔ IsJsonName path := by
  rw [ofPath, IsJsonName]
  cases Path.extension? path with
  | none => simp
  | some e => simp

theorem IsJsonName.join {name : String} (h : IsJsonName name) (directory : String) :
    IsJsonName (Path.join directory name) := by
  obtain ⟨e, he, hletters⟩ := h
  exact ⟨e, Path.extension?_join he, hletters⟩

end IndexFormat
open IndexFormat (IsJsonName)

namespace Index
variable {σ : Type} {fs : FileSystem (StateM σ)} {s s' : σ} {t t' : FileTree} {index : Index}
  {directory name path : String} {octets : List UInt8}

theorem run_load_of_read (hthere : (fs.isThere path).run s = (true, s))
    (hread : (fs.read path).run s = (.ok octets, s)) :
    (load fs path).run s = (decode (.ofPath path) octets, s) := by
  rw [load, run_bind_eq hthere]
  exact run_bind_eq hread _

/-- The octets of an index under a JSON name. -/
def rendition (index : Index) : List UInt8 := index.toJson.compact.toUTF8.toList

theorem run_save_json (hname : IsJsonName name)
    {outcome : Except FileError Unit}
    (h : (fs.write (Path.join directory name) index.rendition).run s = (outcome, s')) :
    (save fs directory name index).run s =
      (some (outcome.map fun _ => Path.join directory name), s') := by
  rw [save, IndexFormat.ofPath_eq_json_iff.mpr hname, encode?]
  exact run_bind_eq h _

/-- A file system that reads back what was written gives back the index. -/
theorem run_load_of_write (hfs : fs.ReadsBack) (hpath : IsJsonName path)
    (h : (fs.write path index.rendition).run s = (.ok (), s')) :
    (load fs path).run s' = (.ok index, s') := by
  obtain ⟨hthere, hread⟩ := hfs path _ s s' h
  rw [run_load_of_read hthere hread, IndexFormat.ofPath_eq_json_iff.mpr hpath, decode, rendition,
    ofRendition_toJson]

/-- How saving an index ends: with a file that is loaded as the index, or with a refusal of the
tree, which never refuses a file that it admits. -/
structure Keeps (t : FileTree) (directory name : String) (index : Index)
    (outcome : Except FileError String) (t' : FileTree) : Prop where
  saved : (save FileTree.system directory name index).run t = (some outcome, t')
  loaded : ∀ path, outcome = .ok path →
    path = Path.join directory name ∧ (load FileTree.system path).run t' = (.ok index, t')
  refused : ∀ e, outcome = .error e → t' = t
  admitted : t.Admits directory name → ∃ path, outcome = .ok path

/-- An index that is saved under a JSON name, wherever that is, is loaded as it was. -/
theorem keeps_json (hname : IsJsonName name) (t : FileTree) (directory : String) (index : Index) :
    ∃ outcome t', Keeps t directory name index outcome t' := by
  have hrun := t.run_write (Path.join directory name) index.rendition
  cases hwrite : t.write (Path.join directory name) index.rendition with
  | error e =>
    rw [hwrite] at hrun
    refine ⟨.error e, t, run_save_json hname hrun, ?_, fun _ _ => rfl, ?_⟩
    · rintro _ ⟨⟩
    · intro hadmits
      obtain ⟨_, hok⟩ := hadmits.exists_write index.rendition
      rw [hok] at hwrite
      cases hwrite
  | ok t' =>
    rw [hwrite] at hrun
    refine ⟨.ok (Path.join directory name), t', run_save_json hname hrun, ?_, ?_, fun _ => ⟨_, rfl⟩⟩
    · rintro _ ⟨⟩
      exact ⟨rfl, run_load_of_write FileTree.readsBack_system (hname.join directory) hrun⟩
    · rintro _ ⟨⟩

/-- Two documents, of which one has an escaped name, a body and all numbers at their limits. -/
def extreme : Index :=
  let corner : SourceRange := .ofCoordinates 0 0xffffffff 0xffffffff 0
  ⟨[{ relativePath := "a \"quoted\"\n\u0001é😀.go"
      occurrences := [
        { symbol := "s", roles := ⟨Int32.minValue⟩, range := corner, enclosingRange := some corner },
        { symbol := "", roles := ⟨Int32.maxValue⟩, range := corner }]
      symbols := [{ symbol := "s", displayName := some "" }, { symbol := "", kind := "K" }] },
    { relativePath := "" }]⟩

/-- A directory with a file of another name. -/
def shelf : FileTree :=
  ⟨.ofList [("shelf", .directory), ("shelf/old.json", .file [0x7b, 0x7d])]⟩

theorem admits_shelf : shelf.Admits "shelf/" "index.JsOn" where
  present := .inr ⟨by decide +kernel, by decide +kernel⟩
  slashless := by decide
  named := by decide
  free := by decide +kernel

theorem isJsonName_index : IsJsonName "index.JsOn" := ⟨"JsOn", by decide +kernel, by decide⟩

theorem shelf_keeps_json : IsJsonName "index.JsOn" ∧ shelf.Admits "shelf/" "index.JsOn" ∧
    ∃ path t', Keeps shelf "shelf/" "index.JsOn" extreme (.ok path) t' := by
  obtain ⟨outcome, t', hkeeps⟩ := keeps_json isJsonName_index shelf "shelf/" extreme
  obtain ⟨path, rfl⟩ := hkeeps.admitted admits_shelf
  exact ⟨isJsonName_index, admits_shelf, path, t', hkeeps⟩

end Index
end StaticCalls
