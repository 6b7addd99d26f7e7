import StaticCalls.Command.Run

/-! The exit code of a failure. Those of the output get theirs by a search for words in the message,
which has none of these words itself, but tells a path and, for some failures, what the system says
(`exitCode_eq_iff`). -/
namespace StaticCalls.Command

/-- The stages of a command in the order in which they are carried out. -/
inductive Stage where
  | configuration
  | loading
  | analysis
  | output
deriving DecidableEq, Repr

/-- The code that stands for the stage. -/
def Stage.code : Stage → UInt32
  | configuration => 2
  | loading => 3
  | analysis => 4
  | output => 1

namespace Failure

def stage : Failure → Stage
  | config _ _ => .configuration
  | index _ _ => .loading
  | graph _ => .analysis
  | directory _ _ => .output
  | output _ _ => .output

section Words
variable {text words : String} {a b w : List Char} {c : Char}

theorem mentions_iff : mentions text words ↔ words.toList <:+: text.toList.map Char.toLower :=
  occursIn_iff

theorem isInfix_cons_iff_of_head? (hw : w.head? ≠ some c) : w <:+: c :: b ↔ w <:+: b := by
  rw [List.infix_cons_iff, or_iff_right_of_imp]
  intro hprefix
  cases w with
  | nil => exact List.nil_infix
  | cons first rest =>
    obtain ⟨rfl, _⟩ := List.cons_prefix_cons.mp hprefix
    exact absurd rfl hw

/-- Words without the separator are found on one side of it. -/
theorem isInfix_append_cons_iff (hw : c ∉ w) :
    w <:+: a ++ c :: b ↔ w <:+: a ∨ w <:+: b := by
  have hhead : w.head? ≠ some c := fun h => hw (List.mem_of_head? h)
  rw [List.infix_append_iff_ne_nil, isInfix_cons_iff_of_head? hhead]
  refine or_congr_right (or_iff_left ?_)
  rintro ⟨_, last, _, hne, rfl, _, hprefix⟩
  obtain ⟨first, rest, rfl⟩ := List.exists_cons_of_ne_nil hne
  obtain ⟨rfl, _⟩ := List.cons_prefix_cons.mp hprefix
  exact hw (by simp)

/-- The words for which trouble with the output is taken for trouble with something else. -/
def misleadingWords : List String := ["config", "index file not found", "cannot read index"]

/-- The text has some of these words in it. -/
def Misleads (text : String) : Prop := ∃ words ∈ misleadingWords, mentions text words

instance (text : String) : Decidable (Misleads text) :=
  inferInstanceAs (Decidable (∃ words ∈ misleadingWords, mentions text words))

theorem misleads_append_iff (before after : String) :
    Misleads (before ++ ": " ++ after) ↔ Misleads before ∨ Misleads after := by
  have hwords : ∀ words ∈ misleadingWords,
      ':' ∉ words.toList ∧ words.toList.head? ≠ some ' ' := by decide
  have hsplit : ∀ words ∈ misleadingWords, (mentions (before ++ ": " ++ after) words ↔
      mentions before words ∨ mentions after words) := by
    intro words hin
    obtain ⟨hcolon, hspace⟩ := hwords words hin
    have htext : (before ++ ": " ++ after).toList.map Char.toLower =
        before.toList.map Char.toLower ++ ':' :: ' ' :: after.toList.map Char.toLower := by
      simp
    rw [mentions_iff, htext, isInfix_append_cons_iff hcolon, isInfix_cons_iff_of_head? hspace,
      mentions_iff, mentions_iff]
  constructor
  · rintro ⟨words, hin, hmentions⟩
    rcases (hsplit words hin).mp hmentions with hbefore | hafter
    · exact .inl ⟨words, hin, hbefore⟩
    · exact .inr ⟨words, hin, hafter⟩
  · rintro (⟨words, hin, hmentions⟩ | ⟨words, hin, hmentions⟩)
    · exact ⟨words, hin, (hsplit words hin).mpr (.inl hmentions)⟩
    · exact ⟨words, hin, (hsplit words hin).mpr (.inr hmentions)⟩

theorem codeOfWords_cases (message : String) :
    codeOfWords message = 1 ∧ ¬ Misleads message ∨
      (codeOfWords message = 2 ∨ codeOfWords message = 3) ∧ Misleads message := by
  rw [codeOfWords]
  split
  next h => exact .inr ⟨.inl rfl, "config", by decide, h⟩
  next hconfig =>
    split
    next h =>
      rcases Bool.or_eq_true_iff.mp h with hmissing | hunread
      · exact .inr ⟨.inr rfl, "index file not found", by decide, hmissing⟩
      · exact .inr ⟨.inr rfl, "cannot read index", by decide, hunread⟩
    next hindex =>
      rw [Bool.or_eq_true_iff, not_or] at hindex
      refine .inl ⟨rfl, ?_⟩
      simp [Misleads, misleadingWords, hconfig, hindex]

end Words

/-- Only the system has words that the failures of files do not have of themselves. -/
theorem misleads_fileError_iff {e : FileError} :
    Misleads e.message ↔ ∃ text, e = .other text ∧ Misleads text := by
  cases e with
  | other text => simp [FileError.message]
  | _ =>
    simp only [reduceCtorEq, false_and, exists_false, iff_false]
    decide

/-- Trouble with an output that has a misleading path, or about which the system has misleading
words. -/
def Misled : Failure → Prop
  | directory path e => Misleads path ∨ ∃ text, e = .other text ∧ Misleads text
  | output path e => Misleads path ∨ ∃ text, e = .other text ∧ Misleads text
  | _ => False

theorem misleads_message_iff {f : Failure} (h : f.stage = .output) :
    Misleads f.message ↔ f.Misled := by
  have hdirectory : ¬ Misleads "Cannot create output directory" := by decide
  have houtput : ¬ Misleads "Cannot write output" := by decide
  cases f with
  | directory path e =>
    show Misleads ("Cannot create output directory" ++ ": " ++ path ++ ": " ++ e.message) ↔ _
    rw [misleads_append_iff, misleads_append_iff, or_iff_right hdirectory, misleads_fileError_iff]
    rfl
  | output path e =>
    show Misleads ("Cannot write output" ++ ": " ++ path ++ ": " ++ e.message) ↔ _
    rw [misleads_append_iff, misleads_append_iff, or_iff_right houtput, misleads_fileError_iff]
    rfl
  | config path e => cases h
  | index path e => cases h
  | graph e => cases h

/-- The exit code of a failure is that of its stage, or another one that is misleading. -/
theorem exitCode_cases (f : Failure) : f.exitCode = f.stage.code ∧ ¬ f.Misled ∨
    (f.exitCode = 2 ∨ f.exitCode = 3) ∧ f.stage = .output ∧ f.Misled := by
  have hwords (hstage : f.stage = .output) (hcode : f.exitCode = codeOfWords f.message) :
      f.exitCode = f.stage.code ∧ ¬ f.Misled ∨
        (f.exitCode = 2 ∨ f.exitCode = 3) ∧ f.stage = .output ∧ f.Misled := by
    rw [hcode, hstage, ← misleads_message_iff hstage]
    exact (codeOfWords_cases f.message).imp_right fun h => ⟨h.1, rfl, h.2⟩
  cases f with
  | config path e => exact .inl ⟨rfl, id⟩
  | index path e => exact .inl ⟨rfl, id⟩
  | graph e => exact .inl ⟨rfl, id⟩
  | directory path e => exact hwords rfl rfl
  | output path e => exact hwords rfl rfl

theorem exitCode_eq_iff (f : Failure) : f.exitCode = f.stage.code ↔ ¬ f.Misled := by
  rcases exitCode_cases f with ⟨hcode, hmisled⟩ | ⟨hcode, hstage, hmisled⟩
  · exact iff_of_true hcode hmisled
  · refine iff_of_false ?_ (not_not_intro hmisled)
    rcases hcode with htwo | hthree
    · rw [hstage, htwo]
      decide
    · rw [hstage, hthree]
      decide

theorem exitCode_ne_zero (f : Failure) : f.exitCode ≠ 0 := by
  rcases exitCode_cases f with ⟨hcode, _⟩ | ⟨htwo | hthree, _⟩
  · rw [hcode]
    cases f.stage <;> decide
  · rw [htwo]
    decide
  · rw [hthree]
    decide

end Failure
end StaticCalls.Command
