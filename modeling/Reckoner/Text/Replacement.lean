import Reckoner.Unicode.Classes

/-!
# Replacing parts of a text

A rule looks at a place of a text, with the character before it, and either takes some characters
there or none. `Rule.apply` reads the text once from left to right: where the rule takes characters,
its replacement is written and reading goes on behind them; elsewhere the character is copied.
What has been written is not read again, and the character before a place is the one of the text
that was read, not of the text that is written.

Whole words are the usual thing to look for: `wordsLength` recognises words with blanks between
them, the last one ending where the run of word characters ends.
-/

namespace Reckoner.Text

open Unicode

/-- What a rule does at a place: it takes `length` characters and writes `replacement`. -/
structure Hit where
  length : Nat
  replacement : List Char

/-- A rule sees the character before a place, if any, and the text from the place on. -/
abbrev Rule := Option Char → List Char → Option Hit

/-- Apply a rule throughout a text that follows `before` and whose first `taken` characters are
spoken for. -/
def Rule.applyFrom (rule : Rule) : Option Char → Nat → List Char → List Char
  | _, _, [] => []
  | _, taken + 1, c :: cs => rule.applyFrom (some c) taken cs
  | before, 0, c :: cs =>
    match rule before (c :: cs) with
    | some hit => hit.replacement ++ rule.applyFrom (some c) (hit.length - 1) cs
    | none => c :: rule.applyFrom (some c) 0 cs

/-- Apply a rule throughout a text. -/
def Rule.apply (rule : Rule) (text : List Char) : List Char := rule.applyFrom none 0 text

/-- A rule that never applies leaves the text as it is. -/
theorem Rule.apply_eq_self {rule : Rule} (h : ∀ before text, rule before text = none)
    (text : List Char) : rule.apply text = text := by
  unfold Rule.apply
  generalize none = before
  induction text generalizing before with
  | nil => rfl
  | cons c cs ih => simp [applyFrom, h, ih]

/-! ## Words -/

/-- Whether a word may start behind this character. -/
def opensWord (before : Option Char) : Bool := !before.any isWord

/-- The run of word characters that a text starts with. -/
def leadingWord (text : List Char) : List Char := text.takeWhile isWord

/-- The number of characters that the words take at the start of the text, with at least one blank
between two of them; none if the text starts otherwise. -/
def wordsLength : List (List Char) → List Char → Option Nat
  | [], _ => some 0
  | [w], text => if leadingWord text = w then some w.length else none
  | w :: ws, text =>
    if leadingWord text = w then
      let gap := (text.drop w.length).takeWhile isBlank
      if gap = [] then none
      else (wordsLength ws (text.drop (w.length + gap.length))).map (w.length + gap.length + ·)
    else none

end Reckoner.Text
