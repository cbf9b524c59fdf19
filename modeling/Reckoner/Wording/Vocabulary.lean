/-!
# The vocabulary of free text

The words for operations, brackets and small whole numbers, with the symbols that they stand for.
Phrases are applied in the order of their list, the longer ones before those they contain. Among
the number words are the words that sound like one.
-/

namespace Reckoner.Wording

/-- Words in a row and the symbols that they stand for. -/
structure Phrase where
  words : List String
  symbols : String

/-- The phrases of calculations. -/
def phrases : List Phrase := [
  ⟨["percentage", "of"], " % * "⟩,
  ⟨["multiplied", "by"], " * "⟩,
  ⟨["close", "bracket"], " ) "⟩,
  ⟨["open", "bracket"], " ( "⟩,
  ⟨["divided", "by"], " / "⟩,
  ⟨["percent", "of"], " % * "⟩,
  ⟨["negative"], " - "⟩,
  ⟨["percent"], " % "⟩,
  ⟨["minus"], " - "⟩,
  ⟨["times"], " * "⟩,
  ⟨["plus"], " + "⟩,
  ⟨["over"], " / "⟩,
  ⟨["into"], " * "⟩]

/-- The phrases that only equations have. -/
def equationPhrases : List Phrase := [
  ⟨["is", "equal", "to"], " = "⟩,
  ⟨["equal", "to"], " = "⟩,
  ⟨["squared"], "^2"⟩,
  ⟨["equals"], " = "⟩,
  ⟨["cubed"], "^3"⟩]

/-- The number words and their digits. -/
def numerals : List (String × String) := [
  ("zero", "0"), ("one", "1"), ("won", "1"), ("two", "2"), ("too", "2"), ("to", "2"),
  ("three", "3"), ("four", "4"), ("for", "4"), ("five", "5"), ("six", "6"), ("seven", "7"),
  ("eight", "8"), ("ate", "8"), ("nine", "9"), ("ten", "10"), ("eleven", "11"),
  ("twelve", "12"), ("thirteen", "13"), ("fourteen", "14"), ("fifteen", "15"),
  ("sixteen", "16"), ("seventeen", "17"), ("eighteen", "18"), ("nineteen", "19")]

/-- The sign of arithmetic that a typographic sign stands for. -/
def plainSign : Char → Char
  | '×' => '*'
  | '÷' => '/'
  | '−' => '-'
  | c => c

/-- A raised two or three as a power. -/
def plainPower : Char → List Char
  | '²' => ['^', '2']
  | '³' => ['^', '3']
  | c => [c]

end Reckoner.Wording
