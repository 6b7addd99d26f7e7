import StaticCalls.Files.System
import StaticCalls.StringMap

/-! A file system that is a value: the files and directories below a working directory. -/
namespace StaticCalls

inductive FileEntry where
  | file (octets : List UInt8)
  | directory
deriving DecidableEq, Repr

/-- Entries under their places, which are names joined by slashes. The working directory itself
has no entry. -/
structure FileTree where
  entries : StringMap FileEntry

namespace FileTree

def empty : FileTree := ⟨.empty⟩

/-- The names on the way from the working directory. -/
abbrev Place := List String

def key (place : Place) : String := "/".intercalate place

def at? (t : FileTree) (place : Place) : Option FileEntry :=
  if place.isEmpty then some .directory else t.entries.get? (key place)

def put (t : FileTree) (place : Place) (entry : FileEntry) : FileTree :=
  ⟨t.entries.insert (key place) entry⟩

/-- Follows the parts of a path. Each has to stand in a directory; the last one may be missing. -/
def follow (t : FileTree) (place : Place) : List String → Except FileError Place
  | [] => .ok place
  | part :: rest =>
      match t.at? place with
      | none => .error .notFound
      | some (.file _) => .error .notDirectory
      | some .directory =>
          if part = "" || part = "." then t.follow place rest
          else if part = ".." then
            if place.isEmpty then .error .notFound else t.follow place.dropLast rest
          else t.follow (place ++ [part]) rest

/-- The place of a relative path. The empty path leads nowhere, and only the root itself can be
reached from the root. -/
def locate (t : FileTree) (path : String) : Except FileError Place :=
  match Path.parts path with
  | "" :: rest => if rest ≠ [] && rest.all (· = "") then .ok [] else .error .notFound
  | parts => t.follow [] parts

def lookup (t : FileTree) (path : String) : Except FileError FileEntry :=
  match t.locate path with
  | .error e => .error e
  | .ok place =>
      match t.at? place with
      | some entry => .ok entry
      | none => .error .notFound

def read (t : FileTree) (path : String) : Except FileError (List UInt8) :=
  match t.lookup path with
  | .ok (.file octets) => .ok octets
  | .ok .directory => .error .isDirectory
  | .error e => .error e

def isDirectory (t : FileTree) (path : String) : Bool :=
  match t.lookup path with
  | .ok .directory => true
  | _ => false

def isThere (t : FileTree) (path : String) : Bool := (t.lookup path).isOk

def createDirectory (t : FileTree) (path : String) : Except FileError FileTree :=
  let parts := ((Path.reversedParts path).dropWhile (· = "")).reverse
  if parts.isEmpty then .error .alreadyExists
  else
    match t.locate ("/".intercalate parts) with
    | .error e => .error e
    | .ok place =>
        match t.at? place with
        | some _ => .error .alreadyExists
        | none => .ok (t.put place .directory)

/-- The parts in front of a name and the slashes behind it, if a path ends like that. Whatever is
there, such a path is never one of a file. -/
def holder? (path : String) : Option (List String) :=
  match Path.reversedParts path with
  | "" :: rest =>
      match rest.dropWhile (· = "") with
      | part :: before => if part = "." || part = ".." then none else some before.reverse
      | [] => none
  | _ => none

def write (t : FileTree) (path : String) (octets : List UInt8) : Except FileError FileTree :=
  match holder? path with
  | some parts =>
      match t.locate ("/".intercalate (parts ++ ["."])) with
      | .ok _ => .error .isDirectory
      | .error e => .error e
  | none =>
      match t.locate path with
      | .error e => .error e
      | .ok place =>
          match t.at? place with
          | some .directory => .error .isDirectory
          | _ => .ok (t.put place (.file octets))

/-- Puts an entry at a place and directories on the way to it. -/
def add (t : FileTree) (place : Place) (entry : FileEntry) : FileTree :=
  ((List.range place.length).drop 1).foldl
    (fun t n => if (t.at? (place.take n)).isNone then t.put (place.take n) .directory else t) t
    |>.put place entry

/-- The entries of `t` that `before` has not, or has otherwise. -/
def changes (before t : FileTree) : List (String × FileEntry) :=
  t.entries.entries.filter fun (place, entry) => before.entries.get? place ≠ some entry

/-- A change that fails leaves the tree as it is. -/
def attempt (change : FileTree → Except FileError FileTree) :
    StateM FileTree (Except FileError Unit) := fun t =>
  match change t with
  | .ok t => (.ok (), t)
  | .error e => (.error e, t)

/-- The file system whose state is a tree. -/
def system : FileSystem (StateM FileTree) where
  isThere path := return (← get).isThere path
  isDirectory path := return (← get).isDirectory path
  read path := return (← get).read path
  createDirectory path := attempt (·.createDirectory path)
  write path octets := attempt (·.write path octets)

end FileTree
end StaticCalls
