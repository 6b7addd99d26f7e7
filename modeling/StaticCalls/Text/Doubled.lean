/-! Text that runs up to a mark. A mark inside the text is written twice, so the first one that
stands alone ends it. -/
namespace StaticCalls.Text

/-- The text before the closing mark and what follows that mark. -/
def readDoubled (mark : Char) : List Char → Option (List Char × List Char)
  | [] => none
  | [c] => if c = mark then some ([], []) else none
  | c :: d :: rest =>
      if c = mark then
        if d = mark then (readDoubled mark rest).map fun (text, rest) => (mark :: text, rest)
        else some ([], d :: rest)
      else (readDoubled mark (d :: rest)).map fun (text, rest) => (c :: text, rest)

theorem length_readDoubled {mark : Char} {cs text rest : List Char}
    (h : readDoubled mark cs = some (text, rest)) : rest.length < cs.length := by
  fun_induction readDoubled mark cs generalizing text <;> grind [Option.map_eq_some_iff]

end StaticCalls.Text
