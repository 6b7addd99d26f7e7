import StaticCalls.Files.System
import StaticCalls.Rendition.Toml

/-! Settings in files. -/
namespace StaticCalls

inductive ConfigError where
  | notFound (path : String)
  | parse
deriving DecidableEq, Repr

def ConfigError.message : ConfigError → String
  | notFound path => "Config file not found: " ++ path
  | parse => "Parse error: not a configuration"

namespace Config
variable {m : Type → Type} [Monad m]

def ofSource (source : String) : Except ConfigError Config :=
  match ofToml? source with
  | some config => .ok config
  | none => .error .parse

/-- A file that cannot be read as text counts as missing. -/
def load (fs : FileSystem m) (path : String) : m (Except ConfigError Config) := do
  match ← fs.read path with
  | .ok octets =>
      match String.fromUTF8? octets.toByteArray with
      | some source => return ofSource source
      | none => return .error (.notFound path)
  | .error _ => return .error (.notFound path)

def loadOrDefault (fs : FileSystem m) (path : String) : m (Except ConfigError Config) := do
  if ← fs.isThere path then load fs path else return .ok {}

end Config
end StaticCalls
