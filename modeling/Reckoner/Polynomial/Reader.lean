import Reckoner.Decimal.Literal
import Reckoner.Polynomial.Basic
import Reckoner.Text.Runs
import Reckoner.Unicode.Classes

/-!
# Reading polynomials

A side of an equation is a sum of signed terms; the sign of the first one may be left out. A term
is a number, or an unknown with an optional number before it and an optional power behind it; a
star between the number and the unknown has no meaning. Terms of one power add up from left to
right. Everything else is refused: parentheses, quotients, other products, powers above six and
numbers beyond the range of doubles.
-/

namespace Reckoner.Polynomial

open Text Unicode

/-- A sign of a term. -/
inductive Sign
  | plus
  | minus
  deriving DecidableEq

/-- The sign that a character stands for. -/
def Sign.ofChar? : Char → Option Sign
  | '+' => some .plus
  | '-' => some .minus
  | _ => none

/-- A number with a sign. -/
def Sign.apply : Sign → Float → Float
  | .plus, x => x
  | .minus, x => -x

/-- A text without the stars that stand directly before an unknown. -/
def dropStars : List Char → List Char
  | '*' :: 'x' :: rest => 'x' :: dropStars rest
  | c :: rest => c :: dropStars rest
  | [] => []

/-- The signed terms of a text, each a sign and the characters up to the next sign. Only the first
term may lack its sign, and no sign stands without a term. -/
def signedTerms? : List Piece → Option (List (Sign × List Char))
  | [] => some []
  | .single c :: .run t :: rest => do
    let sign ← Sign.ofChar? c
    let terms ← signedTerms? rest
    return (sign, t) :: terms
  | _ => none

/-- The signed terms of a text whose first sign may be left out. -/
def splitTerms? (text : List Char) : Option (List (Sign × List Char)) :=
  match pieces (fun c => (Sign.ofChar? c).isNone) text with
  | .run t :: rest => (signedTerms? rest).map ((.plus, t) :: ·)
  | ps => signedTerms? ps

/-- A number, if it is finite. -/
def finite? (x : Option Float) : Option Float := x.filter Float.isFinite

/-- The number before an unknown, one if there is none. -/
def readCoefficient? (text : List Char) : Option Float :=
  if text = [] then some 1 else finite? (Decimal.read? text)

/-- The power behind an unknown, one if there is none. -/
def readPower? : List Char → Option (Fin (maxPower + 1))
  | [] => some 1
  | c :: digits =>
    if c = '^' ∧ digits ≠ [] ∧ digits.all Char.isDigit = true then
      let k := Nat.ofDigitChars 10 digits 0
      if h : k < maxPower + 1 then some ⟨k, h⟩ else none
    else none

/-- The power and the coefficient of a term without its sign. -/
def readTerm? (text : List Char) : Option (Fin (maxPower + 1) × Float) :=
  match text.dropWhile (· ≠ 'x') with
  | [] => (finite? (Decimal.readScientific? text)).map ((0 : Fin (maxPower + 1)), ·)
  | _ :: power => do
    let c ← readCoefficient? (text.takeWhile (· ≠ 'x'))
    let k ← readPower? power
    return (k, c)

/-- Add a signed term to a polynomial. -/
def addSigned? (p : Polynomial) (term : Sign × List Char) : Option Polynomial := do
  let (k, c) ← readTerm? term.2
  return p.addTerm k (term.1.apply c)

/-- The polynomial that a text states, blanks left out; none if it states no polynomial. -/
def ofText? (text : List Char) : Option Polynomial :=
  let bare := text.filter (!isBlank ·)
  let side := dropStars bare
  if bare = [] ∨ bare.any ("()/".toList.contains ·) = true ∨ side.contains '*' = true then none
  else do (← splitTerms? side).foldlM addSigned? zero

end Reckoner.Polynomial
