import Reckoner.Decimal.Places

/-!
# Solutions of an equation

The kinds of solutions that equations of degree one and two have, and the sentence that states
them.
-/

namespace Reckoner

/-- The solutions of an equation. -/
inductive Solution
  /-- Every number is a solution. -/
  | everything
  /-- No number is a solution. -/
  | nothing
  /-- The one solution of an equation of degree one. -/
  | single (x : Float)
  /-- The double root of an equation of degree two. -/
  | double (x : Float)
  /-- Two real roots, the one with the positive square root first. -/
  | reals (x₁ x₂ : Float)
  /-- Two conjugate roots, the one with the positive square root given. -/
  | complex (re im : Float)

/-- The sentence that states the solutions. -/
def Solution.answer : Solution → String
  | .everything => "infinité de solutions (identité)"
  | .nothing => "aucune solution"
  | .single x => "x = " ++ Decimal.text x
  | .double x => "x = " ++ Decimal.text x ++ " (racine double)"
  | .reals x₁ x₂ => "x = " ++ Decimal.text x₁ ++ " ou x = " ++ Decimal.text x₂
  | .complex re im =>
    let r := Decimal.text re
    let i := Decimal.text im.abs
    "x = " ++ r ++ " + " ++ i ++ "i ou x = " ++ r ++ " - " ++ i ++ "i"

end Reckoner
