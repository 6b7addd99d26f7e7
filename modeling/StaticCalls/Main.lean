import StaticCalls.Command.Run

/-! The command line on the file system of the machine. -/
namespace StaticCalls

def FileError.ofSystem : IO.Error → FileError
  | .noFileOrDirectory .. => notFound
  | .alreadyExists .. => alreadyExists
  /- Of the two codes for a wrong kind of file, 21 is that of a directory. -/
  | .inappropriateType _ code _ => if code = 21 then isDirectory else notDirectory
  | e => other e.toString

namespace FileSystem

def attempt {α : Type} (action : IO α) : IO (Except FileError α) := do
  match ← action.toBaseIO with
  | .ok a => return .ok a
  | .error e => return .error (.ofSystem e)

def machine : FileSystem IO where
  isThere path := do
    match ← (IO.FS.Handle.mk path .read).toBaseIO with
    | .error (.permissionDenied ..) => return true
    | opened => return opened.isOk
  isDirectory path := return (← attempt (IO.FS.readBinFile path)) matches .error .isDirectory
  read path := attempt do return (← IO.FS.readBinFile path).toList
  createDirectory path := attempt (IO.FS.createDir path)
  write path octets := attempt (IO.FS.writeBinFile path octets.toByteArray)

end FileSystem

def Command.Environment.machine : Environment IO where
  files := .machine
  time f := do
    let before ← IO.monoMsNow
    let value ← IO.lazyPure f
    return (value, (← IO.monoMsNow) - before)

end StaticCalls

open StaticCalls in
def main (words : List String) : IO UInt32 := do
  let outcome ← Command.respond .machine words
  IO.print outcome.output
  IO.eprint outcome.errorOutput
  return outcome.exitCode
