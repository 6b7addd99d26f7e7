import StaticCalls.Files.Path

/-! What a program asks of a file system, whichever it runs on. -/
namespace StaticCalls

inductive FileError where
  | notFound
  | alreadyExists
  | notDirectory
  | isDirectory
  /-- Any other failure, in the words of the system. -/
  | other (text : String)
deriving DecidableEq, Repr

def FileError.message : FileError → String
  | notFound => "No such file or directory (os error 2)"
  | alreadyExists => "File exists (os error 17)"
  | notDirectory => "Not a directory (os error 20)"
  | isDirectory => "Is a directory (os error 21)"
  | other text => text

structure FileSystem (m : Type → Type) where
  isThere : String → m Bool
  isDirectory : String → m Bool
  read : String → m (Except FileError (List UInt8))
  /-- Makes one directory, whose parent has to be there. -/
  createDirectory : String → m (Except FileError Unit)
  /-- Makes a file or replaces its contents. -/
  write : String → List UInt8 → m (Except FileError Unit)

namespace FileSystem
variable {m : Type → Type} [Monad m]

/-- A directory that is there already is as good as a new one. -/
def settle (fs : FileSystem m) (path : String) (e : FileError) : m (Except FileError Unit) := do
  if ← fs.isDirectory path then return .ok () else return .error e

/-- Makes the first of the directories; the others are its ancestors, made when they are missing. -/
def createFirst (fs : FileSystem m) : List String → m (Except FileError Unit)
  | [] => return .error .notFound
  | path :: ancestors => do
      if path = "" then return .ok ()
      match ← fs.createDirectory path with
      | .ok () => return .ok ()
      | .error .notFound =>
          match ← fs.createFirst ancestors with
          | .error e => return .error e
          | .ok () =>
              match ← fs.createDirectory path with
              | .ok () => return .ok ()
              | .error e => fs.settle path e
      | .error e => fs.settle path e

def createDirectories (fs : FileSystem m) (path : String) : m (Except FileError Unit) :=
  fs.createFirst (path :: Path.ancestors path)

end FileSystem
end StaticCalls
