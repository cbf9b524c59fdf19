import Reckoner.Text.Replacement
import Reckoner.Unicode.Lowercase
import Reckoner.Wording.Vocabulary

/-!
# Passes over free text

Each pass reads a text once from left to right and replaces one kind of wording by symbols:
thousands separators, `% of`, the phrases of a list one after the other, number words, and an `x`
that stands for a multiplication. A word counts only as a whole.
-/

namespace Reckoner.Wording

open Text Unicode

/-- Small letters, and plain signs for the typographic ones. -/
def plain (text : List Char) : List Char := (text.flatMap lower).map plainSign

/-! ## Thousands -/

/-- A comma between a digit and three digits that end a word is left out. -/
def thousandsRule : Rule
  | _, d :: ',' :: a :: b :: c :: rest =>
    if [d, a, b, c].all isDigit && !rest.head?.any isWord then some ⟨5, [d, a, b, c]⟩ else none
  | _, _ => none

/-- Leave out thousands separators until none is left. -/
def dropThousands (text : List Char) : List Char :=
  let next := thousandsRule.apply text
  if next.length < text.length then dropThousands next else text
termination_by text.length

/-! ## Phrases -/

/-- A percent sign before the word `of` is multiplied with what follows. -/
def percentOfRule : Rule
  | _, '%' :: rest =>
    let gap := rest.takeWhile isBlank
    if leadingWord (rest.drop gap.length) = "of".toList then
      some ⟨gap.length + 3, "% *".toList⟩
    else none
  | _, _ => none

/-- Words in a row are replaced by symbols. -/
def phraseRule (words : List (List Char)) (symbols : List Char) : Rule := fun before text =>
  if opensWord before then (wordsLength words text).map (⟨·, symbols⟩) else none

/-- Replace a phrase throughout a text. -/
def Phrase.apply (p : Phrase) (text : List Char) : List Char :=
  (phraseRule (p.words.map String.toList) p.symbols.toList).apply text

/-- Replace `% of`, and then each phrase of a list. -/
def applyPhrases (table : List Phrase) (text : List Char) : List Char :=
  table.foldl (fun t p => p.apply t) (percentOfRule.apply text)

/-! ## Numbers -/

/-- A number word is replaced by its digits. -/
def numeralRule : Rule := fun before text =>
  if opensWord before then
    let word := leadingWord text
    (numerals.lookup (String.ofList word)).map fun digits =>
      ⟨word.length, (" " ++ digits ++ " ").toList⟩
  else none

/-- Replace the number words throughout a text. -/
def applyNumerals (text : List Char) : List Char := numeralRule.apply text

/-! ## The letter x -/

/-- Whether an `x` between these neighbours belongs to no word. -/
def isLone (before after : Option Char) : Bool :=
  !before.any isAlphabetic && !after.any isAlphabetic

/-- Replace by a star each lone `x` with something before and behind it. The text follows `before`,
and `started` says whether anything but blanks stands there. -/
def applyCrosses : Option Char → Bool → List Char → List Char
  | _, _, [] => []
  | before, started, c :: cs =>
    (if c = 'x' && started && isLone before cs.head? && cs.any (!isBlank ·) then '*' else c) ::
      applyCrosses (some c) (started || !isBlank c) cs

/-- Leave out each `x` that has a small letter from `a` to `z` beside it. -/
def dropSpelledX : Option Char → List Char → List Char
  | _, [] => []
  | before, c :: cs =>
    if c = 'x' && (before.any Char.isLower || cs.head?.any Char.isLower) then
      dropSpelledX (some c) cs
    else c :: dropSpelledX (some c) cs

end Reckoner.Wording
