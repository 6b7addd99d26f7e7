import StaticCalls.Extraction.Elements
import StaticCalls.Proofs.StringMap.Values
import Mathlib.Data.List.Dedup
import Mathlib.Data.List.Induction

/-! The counts of the kinds of symbols. They are taken over the merged symbol table, in which the
last entry of each symbol stands, and adding one for each of its entries comes to the same counts in
whatever order they are met (`extract_counts_kinds`). -/
namespace StaticCalls

/-- The entry is one of this kind. Without a kind of its own it is an unspecified one. -/
def SymbolInformation.CountsAs (info : SymbolInformation) (kind : String) : Prop :=
  info.kind ≠ "" ∧ info.kind = kind ∨ info.kind = "" ∧ kind = "Unspecified"

instance (info : SymbolInformation) (kind : String) : Decidable (info.CountsAs kind) :=
  inferInstanceAs (Decidable (info.kind ≠ "" ∧ info.kind = kind ∨
    info.kind = "" ∧ kind = "Unspecified"))

namespace Index
open scoped List
variable {index : Index} {symbol kind : String}

/-! ### Last entries -/

/-- The entries of all symbol tables, in document order, then table order. -/
def symbolEntries (index : Index) : List SymbolInformation :=
  index.documents.flatMap Document.symbols

/-- The distinct symbols of all tables. -/
def tabledSymbols (index : Index) : List String :=
  (index.symbolEntries.map SymbolInformation.symbol).dedup

def lastEntry? (index : Index) (symbol : String) : Option SymbolInformation :=
  (index.symbolEntries.filter fun info => info.symbol == symbol).getLast?

/-- The symbols whose last entry is of the kind. -/
def symbolsOfKind (index : Index) (kind : String) : List String :=
  index.tabledSymbols.filter fun symbol =>
    (index.lastEntry? symbol).any fun info => info.CountsAs kind

theorem get?_symbolTable (index : Index) (symbol : String) :
    index.symbolTable.get? symbol = index.lastEntry? symbol := by
  simp [symbolTable, StringMap.get?_ofList, StringMap.last?, lastEntry?, symbolEntries,
    List.filter_map, Function.comp_def]

theorem keys_symbolTable_perm (index : Index) : index.symbolTable.keys ~ index.tabledSymbols := by
  unfold tabledSymbols
  rw [List.perm_ext_iff_of_nodup index.symbolTable.nodup_keys (List.nodup_dedup _)]
  intro symbol
  simp [StringMap.mem_keys_iff, symbolTable, StringMap.contains_ofList_iff, symbolEntries]

/-- The merged table holds the last entry of each symbol. -/
theorem values_symbolTable_perm (index : Index) :
    index.symbolTable.values ~ index.tabledSymbols.filterMap index.lastEntry? := by
  rw [StringMap.values_eq_filterMap_get?, funext index.get?_symbolTable]
  exact index.keys_symbolTable_perm.filterMap _

theorem kindText_eq_iff {info : SymbolInformation} : kindText info = kind ↔ info.CountsAs kind := by
  unfold kindText SymbolInformation.CountsAs
  split
  next hnone => simp [hnone, eq_comm]
  next hsome => simp [hsome]

theorem count_kinds (index : Index) (kind : String) :
    (index.symbolTable.values.map kindText).count kind = (index.symbolsOfKind kind).length := by
  rw [(index.values_symbolTable_perm.map kindText).count_eq, symbolsOfKind]
  induction index.tabledSymbols with
  | nil => rfl
  | cons symbol rest ih =>
    cases hlast : index.lastEntry? symbol with
    | none => simpa [hlast] using ih
    | some info =>
      by_cases hkind : kindText info = kind <;>
        simpa [hlast, hkind, ← kindText_eq_iff] using ih

/-! ### Counting -/

/-- Counts the kinds of the entries one after the other. -/
def countKinds (entries : List SymbolInformation) : StringMap Nat :=
  entries.foldl (fun counts info =>
    let kind := if info.kind = "" then "Unspecified" else info.kind
    counts.insert kind (counts.getD kind 0 + 1)) .empty

theorem countKinds_eq_histogram (entries : List SymbolInformation) :
    countKinds entries = .histogram (entries.map kindText) := by
  induction entries using List.reverseRecOn with
  | nil => rfl
  | append_singleton entries info ih =>
    rw [countKinds] at ih
    simp [countKinds, ih, StringMap.histogram_concat, kindText]

/-- Counts of kinds against the entries of the symbol tables, `table` being those merged. -/
structure CountsKinds (index : Index) (table : StringMap SymbolInformation)
    (counts : StringMap Nat) : Prop where
  merged : ∀ symbol, table.get? symbol = index.lastEntry? symbol
  anyOrder : ∀ entries, entries ~ table.values → countKinds entries = counts
  counted : ∀ kind, counts.get? kind =
    if index.symbolsOfKind kind = [] then none else some (index.symbolsOfKind kind).length
  total : counts.values.sum = index.tabledSymbols.length

/-- The kinds of an extraction are counted over the last entries of the distinct symbols. -/
theorem extract_counts_kinds (index : Index) (policy : ReferencePolicy) :
    index.CountsKinds (index.extract policy).symbols (index.extract policy).stats.kindCounts where
  merged := index.get?_symbolTable
  anyOrder entries hperm := by
    rw [countKinds_eq_histogram]
    exact StringMap.histogram_eq_of_perm (hperm.map kindText)
  counted kind := by
    show (StringMap.histogram (index.symbolTable.values.map kindText)).get? kind = _
    simp [StringMap.get?_histogram, count_kinds]
  total := by
    have hlength := index.keys_symbolTable_perm.length_eq
    show (StringMap.histogram (index.symbolTable.values.map kindText)).values.sum = _
    rw [StringMap.sum_values_histogram, List.length_map, ← hlength]
    simp [StringMap.values, StringMap.keys]

end Index
end StaticCalls
