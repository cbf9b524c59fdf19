import Reckoner.Wording.Passes

/-!
# Canonical text

Free text is turned into the symbols of one of two small languages, and all other characters are
left out: `toExpression` gives a calculation, its parts one space apart, `toEquation` an equation
without spaces. Neither can fail; a text that says nothing gives the empty text.
-/

namespace Reckoner.Wording

open Text Unicode

/-- The characters of calculations. -/
def isExpressionChar (c : Char) : Bool := c.isDigit || "+-*/().%".toList.contains c

/-- The characters of equations. -/
def isEquationChar (c : Char) : Bool := c.isDigit || "x+-*/^().=".toList.contains c

/-- A text without the blanks at its ends and with one space for each other run of blanks.
`started` says whether something has been written, and `gap` whether blanks followed it. -/
def squeeze : Bool → Bool → List Char → List Char
  | _, _, [] => []
  | started, gap, c :: cs =>
    if isBlank c then squeeze started started cs
    else if gap then ' ' :: c :: squeeze true false cs
    else c :: squeeze true false cs

/-- The calculation that a text words. -/
def toExpression (text : List Char) : List Char :=
  let symbols := applyNumerals (applyPhrases phrases (dropThousands (plain text)))
  squeeze false false
    ((applyCrosses none false symbols).filter fun c => isExpressionChar c || isBlank c)

/-- The equation that a text words. -/
def toEquation (text : List Char) : List Char :=
  let unified := dropThousands ((plain text).flatMap plainPower)
  let symbols := applyNumerals (applyPhrases phrases (applyPhrases equationPhrases unified))
  (dropSpelledX none symbols).filter isEquationChar

end Reckoner.Wording
