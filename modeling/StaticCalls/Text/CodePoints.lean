/-! Sets of characters given as ascending ranges of code points. -/
namespace StaticCalls.Text

/-- A set of code points, as the first and the last of each run. -/
abbrev CodePoints := List (Nat × Nat)

def CodePoints.contains (runs : CodePoints) (c : Char) : Bool :=
  runs.any fun run => run.1 ≤ c.toNat && c.toNat ≤ run.2

end StaticCalls.Text
