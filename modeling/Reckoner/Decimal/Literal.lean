/-!
# Decimal literals

A literal is digits with at most one point among them and at least one digit; it may carry a power
of ten behind an `e`. Its value is the double nearest to the number written, ties to even, and
infinity beyond the range of doubles. Signs are no part of a literal.
-/

namespace Reckoner.Decimal

/-- The characters that literals are made of. -/
def isLiteralChar (c : Char) : Bool := c.isDigit || c = '.'

/-- The digits before and behind the point. -/
structure Digits where
  whole : List Char
  fraction : List Char

/-- The digits of a literal; none if the text is not one. -/
def Digits.ofText? (text : List Char) : Option Digits :=
  let whole := text.takeWhile Char.isDigit
  match text.dropWhile Char.isDigit with
  | [] => if whole = [] then none else some ⟨whole, []⟩
  | c :: fraction =>
    if c = '.' ∧ fraction.all Char.isDigit = true ∧ ¬(whole = [] ∧ fraction = []) then
      some ⟨whole, fraction⟩
    else none

/-- All digits as one number. -/
def Digits.units (d : Digits) : Nat := Nat.ofDigitChars 10 (d.whole ++ d.fraction) 0

/-- The double nearest to `m` times ten to the power `e`. -/
def scaled (m : Nat) : Int → Float
  | .ofNat e => Float.ofScientific m false e
  | .negSucc e => Float.ofScientific m true (e + 1)

/-- The value of a literal times ten to the power `e`. -/
def Digits.value (d : Digits) (e : Nat) : Float := scaled d.units (e - d.fraction.length)

/-- The value of a literal without a power of ten. -/
def read? (text : List Char) : Option Float := (Digits.ofText? text).map (·.value 0)

/-- The value of a literal that may end in `e` or `E` and a power of ten. -/
def readScientific? (text : List Char) : Option Float :=
  let isMark := fun c => c = 'e' || c = 'E'
  match text.dropWhile (!isMark ·) with
  | [] => read? text
  | _ :: power =>
    if power ≠ [] ∧ power.all Char.isDigit = true then
      (Digits.ofText? (text.takeWhile (!isMark ·))).map (·.value (Nat.ofDigitChars 10 power 0))
    else none

end Reckoner.Decimal
