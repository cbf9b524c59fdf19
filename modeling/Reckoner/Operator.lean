import Reckoner.Fault

/-!
# Operators

The four operators between two operands, how strongly they bind, and what they compute: the nearest
double to the exact result. Only the division can fail, by a divisor that equals zero.
-/

namespace Reckoner

/-- The four operators between two operands. -/
inductive Operator
  | plus
  | minus
  | times
  | over
  deriving DecidableEq

namespace Operator

/-- How strongly an operator binds. -/
def rank : Operator → Nat
  | .plus | .minus => 1
  | .times | .over => 2

/-- The sign of an operator. -/
def symbol : Operator → Char
  | .plus => '+'
  | .minus => '-'
  | .times => '*'
  | .over => '/'

/-- The value of an operator on two operands. -/
def apply : Operator → Float → Float → Except Fault Float
  | .plus, a, b => .ok (a + b)
  | .minus, a, b => .ok (a - b)
  | .times, a, b => .ok (a * b)
  | .over, a, b => if b == 0 then .error .divisionByZero else .ok (a / b)

end Operator

/-- So many hundredths of a base. -/
def percentOf (base x : Float) : Float := x * base / 100

/-- A value, if it is finite. -/
def checkFinite (x : Float) : Except Fault Float :=
  if x.isFinite then .ok x else .error (.malformed (.notFinite x))

end Reckoner
