import StaticCalls.Config
import StaticCalls.Json.Record

/-! The JSON rendition of settings. -/
namespace StaticCalls
open Json (Decoder)

namespace ReferencePolicy

def toJson (p : ReferencePolicy) : Json := .string p.text

def ofJson? : Decoder ReferencePolicy := Json.named? ofText?

end ReferencePolicy

namespace Config

def toJson (c : Config) : Json :=
  .object [
    ("analysis", .object [("reference_policy", c.analysis.referencePolicy.toJson),
      ("parallel", .bool c.analysis.parallel)]),
    ("output", .object [("pretty", .bool c.output.pretty)])]

def analysisOfJson? : Decoder AnalysisSection := fun room v => do
  let r ← Json.record? ["reference_policy", "parallel"] room v
  return ⟨← r.withDefault "reference_policy" .methods ReferencePolicy.ofJson?,
    ← r.withDefault "parallel" true Json.bool?⟩

def outputOfJson? : Decoder OutputSection := fun room v => do
  let r ← Json.record? ["pretty"] room v
  return ⟨← r.withDefault "pretty" true Json.bool?⟩

def ofJson? : Decoder Config := fun room v => do
  let r ← Json.record? ["analysis", "output"] room v
  return ⟨← r.withDefault "analysis" {} analysisOfJson?,
    ← r.withDefault "output" {} outputOfJson?⟩

end Config
end StaticCalls
