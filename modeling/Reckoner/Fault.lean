import Reckoner.Decimal.Places
import Reckoner.Text.Quoted

/-!
# Faults

The causes for which a text has no answer, and the wording of each. `Malformation` tells what is
wrong with an expression, `Obstacle` why an equation cannot be solved.
-/

namespace Reckoner

/-- What is wrong with an expression. -/
inductive Malformation
  /-- A minus sign is followed by no digit, point or opening parenthesis. -/
  | bareSign
  /-- The character is no part of expressions. -/
  | unexpected (c : Char)
  /-- An operator lacks an operand. -/
  | missingOperand
  /-- The operators leave `count` values in place of one. -/
  | leftover (count : Nat)
  /-- The value is infinite or not a number. -/
  | notFinite (value : Float)

/-- Why an equation cannot be solved. -/
inductive Obstacle
  /-- There is not exactly one equal sign. -/
  | equalSigns
  /-- The text on the left is no polynomial. -/
  | leftSide (text : List Char)
  /-- The text on the right is no polynomial. -/
  | rightSide (text : List Char)
  /-- No term with the unknown is stated. -/
  | noUnknown
  /-- The degree is three or more. -/
  | degree (d : Nat)

/-- Why a text has no answer. -/
inductive Fault
  /-- There are no tokens. -/
  | empty
  /-- A run of digits and points is no number. -/
  | literal (text : List Char)
  | malformed (why : Malformation)
  /-- A parenthesis has no partner. -/
  | unbalanced
  /-- A percent sign has no operand. -/
  | barePercent
  | divisionByZero
  | unsolvable (why : Obstacle)
  /-- The text is neither an equation nor a calculation. -/
  | unrecognised

/-- The wording of a malformation. -/
def Malformation.message : Malformation → String
  | .bareSign => "moins unaire sans chiffres"
  | .unexpected c => "caractère inattendu: '" ++ c.toString ++ "'"
  | .missingOperand => "opérande manquante"
  | .leftover n => toString n ++ " valeurs restantes au lieu d’une"
  | .notFinite x => "résultat non fini (" ++ Decimal.text x ++ ")"

/-- The wording of an obstacle. -/
def Obstacle.message : Obstacle → String
  | .equalSigns => "il faut exactement un '='"
  | .leftSide t => "membre gauche illisible: " ++ Text.quoted t
  | .rightSide t => "membre droit illisible: " ++ Text.quoted t
  | .noUnknown => "aucun x dans l’équation"
  | .degree d => "degré " ++ toString d ++ " non supporté"

/-- The wording of a fault. -/
def Fault.message : Fault → String
  | .empty => "expression vide"
  | .literal t => "jeton invalide : " ++ Text.quoted t
  | .malformed why => "expression invalide : " ++ why.message
  | .unbalanced => "parenthèses non appariées"
  | .barePercent => "pourcentage sans opérande"
  | .divisionByZero => "division par zéro"
  | .unsolvable why => "équation non résoluble : " ++ why.message
  | .unrecognised => "entrée non reconnue"

end Reckoner
