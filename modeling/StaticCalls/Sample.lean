import StaticCalls.Index.Document

/-! Small indexes made of functions and calls, to try things out on. -/
namespace StaticCalls.Sample

/-- The symbol of a function of a package. -/
def goFunction (package name : String) : String :=
  "scip-go gomod example v1.0.0 `example/" ++ package ++ "`/" ++ name ++ "()."

def caller : String := "scip-go gomod example v1.0.0 `example/pkg`/a()."

def callee : String := "scip-go gomod example v1.0.0 `example/pkg`/b()."

/-- Defined in no sample. -/
def libraryCall : String := "scip-go gomod std v1.22 fmt/Println()."

inductive Item where
  /-- Named on its first line; the body takes up the lines from `start` to `stop`. -/
  | function (symbol : String) (start stop : UInt32)
  /-- One character wide. -/
  | call (symbol : String) (line character : UInt32)
deriving DecidableEq, Repr

namespace Item

def occurrence : Item → Occurrence
  | function symbol start stop =>
      .definition symbol (.ofCoordinates start 5 start 6) (some (.ofCoordinates start 0 stop 1))
  | call symbol line character =>
      .reference symbol (.ofCoordinates line character line (character + 1))

def information? : Item → Option SymbolInformation
  | function symbol _ _ => some { symbol, kind := "Function" }
  | call _ _ _ => none

end Item

def document (path : String) (items : List Item) : Document where
  relativePath := path
  occurrences := items.map Item.occurrence
  symbols := items.filterMap Item.information?

/-- A function, the one it calls, and a call into a library. -/
def twoDocuments : Index :=
  ⟨[document "pkg/a.go" [.function caller 0 5, .call callee 2 1, .call libraryCall 3 1],
    document "pkg/b.go" [.function callee 0 2]]⟩

/-- Two functions that call each other, and a third one that calls the first. -/
def mutualRecursion : Index :=
  let ping := goFunction "net" "ping"
  let pong := goFunction "net" "pong"
  ⟨[document "net/ping.go" [.function ping 0 3, .call pong 1 1, .function pong 5 8, .call ping 6 1],
    document "net/serve.go" [.function (goFunction "net" "serve") 0 4, .call ping 2 1]]⟩

end StaticCalls.Sample
