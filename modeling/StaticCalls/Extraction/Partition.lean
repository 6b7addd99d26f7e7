import StaticCalls.Extraction.Policy
import StaticCalls.Extraction.Stats
import StaticCalls.Index.Mention
import StaticCalls.Symbol.Parser

/-! Sorting the occurrences of one document into scoped definitions and candidate references.
Each occurrence is classified by itself. -/
namespace StaticCalls

/-- What an occurrence is to the analysis. -/
inductive Verdict where
  /-- Its symbol is empty or private to the document. -/
  | hidden
  | unparseable (error : SymbolError)
  | definition (suffix : Suffix)
  | reference (suffix : Suffix)
  /-- The policy does not count it. -/
  | rejected
deriving DecidableEq, Repr

namespace Verdict

def ofOccurrence (policy : ReferencePolicy) (o : Occurrence) : Verdict :=
  if o.symbol = "" || ParsedSymbol.isLocal o.symbol then hidden
  else
    match Suffix.ofSymbol o.symbol with
    | .error e => unparseable e
    | .ok suffix =>
        if o.isScopedDefinition then definition suffix
        else if policy.accepts suffix then reference suffix
        else rejected

def isHidden : Verdict → Bool
  | hidden => true
  | _ => false

def isDefinition : Verdict → Bool
  | definition _ => true
  | _ => false

def isReference : Verdict → Bool
  | reference _ => true
  | _ => false

/-- The suffix of an occurrence that takes part. -/
def suffix? : Verdict → Option Suffix
  | definition suffix => some suffix
  | reference suffix => some suffix
  | _ => none

def error? : Verdict → Option SymbolError
  | unparseable e => some e
  | _ => none

end Verdict

/-- The scoped definitions of one document and its candidate references, in occurrence order. -/
structure Partition where
  document : String
  /-- Of several scoped definitions of one symbol the last one. -/
  definitions : StringMap Mention
  references : List Mention

namespace Document

def mentions (document : Document) : List Mention :=
  document.occurrences.map fun o => ⟨document.relativePath, o⟩

/-- Each mention of the document with its verdict under the policy. -/
def classified (document : Document) (policy : ReferencePolicy) : List (Mention × Verdict) :=
  document.mentions.map fun m => (m, Verdict.ofOccurrence policy m.occurrence)

/-- The mentions whose verdict passes the test, in order. -/
def select (test : Verdict → Bool) (classified : List (Mention × Verdict)) : List Mention :=
  (classified.filter fun c => test c.2).map Prod.fst

def partition (document : Document) (policy : ReferencePolicy) : Partition :=
  let classified := document.classified policy
  { document := document.relativePath
    definitions := .ofList ((select Verdict.isDefinition classified).map fun m => (m.symbol, m))
    references := select Verdict.isReference classified }

def skipped (classified : List (Mention × Verdict)) : List SkippedSymbol :=
  classified.filterMap fun (m, verdict) =>
    verdict.error?.map fun e => ⟨m.symbol, m.path, e.message m.symbol⟩

def extractStats (document : Document) (policy : ReferencePolicy) : ExtractStats :=
  let classified := document.classified policy
  { documents := 1
    occurrences := document.occurrences.length
    localsSkipped := (select Verdict.isHidden classified).length
    definitions := (select Verdict.isDefinition classified).length
    references := (select Verdict.isReference classified).length
    skipped := skipped classified
    suffixCounts := .histogram (classified.filterMap fun c => c.2.suffix?.map Suffix.text) }

end Document
end StaticCalls
