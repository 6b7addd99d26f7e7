import StaticCalls.Json.Record
import StaticCalls.Symbol.Basic

/-! The JSON rendition of parsed symbols. -/
namespace StaticCalls
open Json (Decoder)

namespace Suffix

def toJson (s : Suffix) : Json := .string s.text

def ofJson? : Decoder Suffix := Json.named? ofText?

end Suffix

namespace Descriptor

def toJson (d : Descriptor) : Json :=
  .object [("name", .string d.name), ("disambiguator", .string d.disambiguator),
    ("suffix", d.suffix.toJson)]

def ofJson? : Decoder Descriptor := fun room v => do
  let r ← Json.record? ["name", "disambiguator", "suffix"] room v
  return ⟨← r.required "name" Json.string?, ← r.required "disambiguator" Json.string?,
    ← r.required "suffix" Suffix.ofJson?⟩

end Descriptor

namespace ParsedSymbol

def toJson (p : ParsedSymbol) : Json :=
  .object [("scheme", .string p.scheme), ("manager", .string p.manager),
    ("package_name", .string p.packageName), ("version", .string p.version),
    ("descriptors", .list Descriptor.toJson p.descriptors)]

def ofJson? : Decoder ParsedSymbol := fun room v => do
  let r ← Json.record? ["scheme", "manager", "package_name", "version", "descriptors"] room v
  return {
    scheme := ← r.required "scheme" Json.string?
    manager := ← r.required "manager" Json.string?
    packageName := ← r.required "package_name" Json.string?
    version := ← r.required "version" Json.string?
    descriptors := ← r.required "descriptors" (Json.list? Descriptor.ofJson?) }

end ParsedSymbol
end StaticCalls
