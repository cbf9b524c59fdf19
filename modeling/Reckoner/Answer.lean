import Reckoner.Equation.Solver
import Reckoner.Evaluation
import Reckoner.Token.Reader
import Reckoner.Wording.Canonical

/-!
# Answers to free text

A text is answered as a calculation or as an equation. `answer` decides by itself: an equation is a
text whose canonical form has an unknown and exactly one equal sign, a calculation any other text
with a digit in its canonical form.
-/

namespace Reckoner

/-- The two kinds of questions. -/
inductive Mode
  | arithmetic
  | algebra
  deriving DecidableEq

/-- The name of a mode. -/
def Mode.name : Mode → String
  | .arithmetic => "arithmetique"
  | .algebra => "algebre"

/-- The answer to a question, with the steps that led to it. -/
structure Answer where
  mode : Mode
  steps : List String
  result : String

/-- The value of a calculation in canonical form. -/
def evaluateText (text : List Char) : Except Fault Float := do evaluate (← Token.read text)

/-- Answer a text as a calculation. -/
def answerArithmetic (text : List Char) : Except Fault Answer := do
  let expression := Wording.toExpression text
  let tokens ← Token.read expression
  let value ← evaluate tokens
  let result := Decimal.text value
  return {
    mode := .arithmetic
    steps :=
      ["Expression : " ++ String.ofList expression,
        "Jetons : " ++ Token.render tokens,
        "Résultat : " ++ result]
    result }

/-- Answer a text as an equation. -/
def answerAlgebra (text : List Char) : Except Fault Answer := do
  let r ← Equation.solve (Wording.toEquation text)
  return { mode := .algebra, steps := r.steps, result := r.solution.answer }

/-- Answer a text in a given mode. -/
def answerIn : Mode → List Char → Except Fault Answer
  | .arithmetic => answerArithmetic
  | .algebra => answerAlgebra

/-- Whether a text words an equation: it has an unknown and one equal sign. -/
def wordsEquation (text : List Char) : Bool :=
  let equation := Wording.toEquation text
  equation.contains 'x' && equation.count '=' = 1

/-- Whether a text words a calculation: it has a digit. -/
def wordsCalculation (text : List Char) : Bool := (Wording.toExpression text).any Char.isDigit

/-- The mode that fits a text, if any; equations come first. -/
def Mode.detect (text : List Char) : Option Mode :=
  if wordsEquation text then some .algebra
  else if wordsCalculation text then some .arithmetic
  else none

/-- Answer a text in the mode that fits it. -/
def answer (text : List Char) : Except Fault Answer :=
  match Mode.detect text with
  | some mode => answerIn mode text
  | none => .error .unrecognised

end Reckoner
