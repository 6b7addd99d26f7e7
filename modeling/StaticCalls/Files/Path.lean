/-! Paths as text. Slashes at the end and single dots after the first part do not count as parts. -/
namespace StaticCalls.Path

/-- The parts between slashes. -/
def parts (path : String) : List String := (path.toList.splitOn '/').map String.ofList

def reversedParts (path : String) : List String := (parts path).reverse

/-- Drops the parts at the end that do not count. The first part of a path always counts. -/
def trim : List String → List String
  | [] => []
  | [part] => [part]
  | part :: rest => if part = "" || part = "." then trim rest else part :: rest

theorem length_trim (parts : List String) : (trim parts).length ≤ parts.length := by
  fun_induction trim parts <;> grind

def parentParts? (parts : List String) : Option (List String) :=
  match trim parts with
  | [] => none
  | [part] => if part = "" then none else some []
  | _ :: rest => some (trim rest)

theorem length_parentParts? {parts parent : List String} (h : parentParts? parts = some parent) :
    parent.length < parts.length := by
  have := length_trim parts
  unfold parentParts? at h
  split at h
  next => cases h
  next ht => grind
  next part rest _ ht =>
    have := length_trim rest
    grind

def textOf (parts : List String) : String :=
  if parts = [""] then "/" else "/".intercalate parts.reverse

/-- The path without its last part; the empty path and the root have none. -/
def parent? (path : String) : Option String := (parentParts? (reversedParts path)).map textOf

/-- What is left when parts are taken off the end one by one. -/
def ancestorsOf (parts : List String) : List String :=
  match _h : parentParts? parts with
  | some parent => textOf parent :: ancestorsOf parent
  | none => []
termination_by parts.length
decreasing_by exact length_parentParts? _h

def ancestors (path : String) : List String := ancestorsOf (reversedParts path)

/-- The last part, unless it is a way up, a lone dot or nothing. -/
def fileName? (path : String) : Option String :=
  match trim (reversedParts path) with
  | part :: _ => if part = "" || part = "." || part = ".." then none else some part
  | [] => none

/-- What follows the last dot of the file name; a dot in front of all else begins no extension. -/
def extension? (path : String) : Option String := do
  let reversed := (← fileName? path).toList.reverse
  let extension := reversed.takeWhile (· != '.')
  match reversed.dropWhile (· != '.') with
  | [] => none
  | [_] => none
  | _ => return String.ofList extension.reverse

/-- A name with a slash in front starts from the root, whatever the directory is. -/
def join (directory name : String) : String :=
  if directory = "" || name.toList.head? = some '/' then name
  else if directory.toList.getLast? = some '/' then directory ++ name
  else directory ++ "/" ++ name

end StaticCalls.Path
