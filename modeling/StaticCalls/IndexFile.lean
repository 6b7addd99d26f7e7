import StaticCalls.Files.System
import StaticCalls.Json.Writer
import StaticCalls.Rendition.Index
import StaticCalls.Scip.Reader
import StaticCalls.Scip.Writer

/-! Indexes in files: the JSON rendition in files named `.json`, SCIP in all others. -/
namespace StaticCalls

inductive IndexFormat where
  | scip
  | json
deriving DecidableEq, Repr

/-- The letters of the extension may be large or small. -/
def IndexFormat.ofPath (path : String) : IndexFormat :=
  match Path.extension? path with
  | some e => if e.toList.map Char.toLower = ['j', 's', 'o', 'n'] then .json else .scip
  | none => .scip

inductive LoadError where
  | notFound (path : String)
  | io (error : FileError)
  | json
  | scip
  | occurrence (error : GraphError)
deriving DecidableEq, Repr

namespace LoadError

def message : LoadError → String
  | notFound path => "Index file not found: " ++ path
  | io e => "IO error: " ++ e.message
  | json => "JSON decode error: not an index"
  | scip => "SCIP decode error: not an index"
  | occurrence e => "Invalid occurrence: " ++ e.message

/-- The error with the failure of the system behind it, if there is one. -/
def chain : LoadError → String
  | io e => (io e).message ++ ": " ++ e.message
  | e => e.message

end LoadError

namespace Index

def ofScip (octets : List UInt8) : Except LoadError Index :=
  match Scip.IndexMessage.decode? octets with
  | none => .error .scip
  | some raw =>
      match raw.toIndex with
      | .ok index => .ok index
      | .error e => .error (.occurrence e)

def ofRendition (octets : List UInt8) : Except LoadError Index :=
  match Json.decode? ofJson? octets with
  | some index => .ok index
  | none => .error .json

def decode (format : IndexFormat) (octets : List UInt8) : Except LoadError Index :=
  match format with
  | .scip => ofScip octets
  | .json => ofRendition octets

/-- SCIP holds no coordinate past the signed range, so such an index has no encoding. -/
def encode? (format : IndexFormat) (index : Index) : Option (List UInt8) :=
  match format with
  | .scip => (Scip.IndexMessage.ofIndex? index).map Scip.IndexMessage.encode
  | .json => some index.toJson.compact.toUTF8.toList

def load {m : Type → Type} [Monad m] (fs : FileSystem m) (path : String) :
    m (Except LoadError Index) := do
  if !(← fs.isThere path) then return .error (.notFound path)
  match ← fs.read path with
  | .ok octets => return decode (.ofPath path) octets
  | .error e => return .error (.io e)

/-- Writes the index in the format that the name tells and gives the path of the file, which is
below the directory unless the name says otherwise. Without an encoding nothing is written. -/
def save {m : Type → Type} [Monad m] (fs : FileSystem m) (directory name : String)
    (index : Index) : m (Option (Except FileError String)) :=
  match index.encode? (.ofPath name) with
  | none => return none
  | some octets => do
      let path := Path.join directory name
      return some ((← fs.write path octets).map fun _ => path)

end Index
end StaticCalls
