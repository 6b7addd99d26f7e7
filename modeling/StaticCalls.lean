import StaticCalls.Main
import StaticCalls.Files.Tree
import StaticCalls.Rendition.Config
import StaticCalls.Rendition.Symbol
import StaticCalls.Sample
import StaticCalls.Proofs.Symbol.Faults
import StaticCalls.Proofs.Symbol.Endings
import StaticCalls.Proofs.Extraction.Counters
import StaticCalls.Proofs.Extraction.Kinds
import StaticCalls.Proofs.Scope.Closing
import StaticCalls.Proofs.Scope.Orders
import StaticCalls.Proofs.Scope.Outcome
import StaticCalls.Proofs.Pipeline.Forest
import StaticCalls.Proofs.Pipeline.Relevance
import StaticCalls.Proofs.Pipeline.Arrangement
import StaticCalls.Proofs.Pipeline.Narrowing
import StaticCalls.Proofs.CallGraph.Depth
import StaticCalls.Proofs.CallGraph.Effort
import StaticCalls.Proofs.CallGraph.Expansion
import StaticCalls.Proofs.CallTree.Levels
import StaticCalls.Proofs.CallTree.Recursion
import StaticCalls.Proofs.Rendition.CallForest
import StaticCalls.Proofs.Scip.Conversion
import StaticCalls.Proofs.Scip.RoundTrip
import StaticCalls.Proofs.Files.IndexFile
import StaticCalls.Proofs.Command.Stages
