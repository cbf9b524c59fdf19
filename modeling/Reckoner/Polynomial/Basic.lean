import Reckoner.Decimal.Places

/-!
# Polynomials in one unknown

A polynomial has a coefficient for some of the powers from zero to six. A power may be present with
the coefficient zero; `Polynomial.sub` leaves out the coefficients below the tolerance
(`le_abs_of_subCoeff`), and so takes away what cancels. Polynomials are shown from the greatest
power down.
-/

namespace Reckoner

/-- The greatest power of a term. -/
def maxPower : Nat := 6

/-- Values nearer to zero than this count as zero. -/
def tolerance : Float := 1e-9

/-- A polynomial: for each power its coefficient, if the power is present. -/
structure Polynomial where
  terms : Vector (Option Float) (maxPower + 1)

namespace Polynomial

/-- The polynomial without terms. -/
def zero : Polynomial := ⟨Vector.replicate _ none⟩

/-- The coefficient of a power, zero if the power is absent. -/
def coeff (p : Polynomial) (k : Nat) : Float := (p.terms[k]?.join).getD 0

/-- The terms that are present, the greatest power first. -/
def monomials (p : Polynomial) : List (Nat × Float) :=
  (List.finRange (maxPower + 1)).reverse.filterMap fun k => p.terms[k].map (k.val, ·)

/-- Whether no power is present. -/
def isZero (p : Polynomial) : Bool := p.monomials.isEmpty

/-- The greatest power that is present, zero if there is none. -/
def degree (p : Polynomial) : Nat := (p.monomials.head?.map Prod.fst).getD 0

/-- Add a term to what is there for its power. -/
def addTerm (p : Polynomial) (k : Fin (maxPower + 1)) (c : Float) : Polynomial :=
  ⟨p.terms.set k (some (p.terms[k].getD 0 + c))⟩

/-- The difference of two coefficients; it is absent if both are or if it counts as zero. -/
def subCoeff : Option Float → Option Float → Option Float
  | none, none => none
  | some a, none => keep a
  | a, some b => keep (a.getD 0 - b)
where
  keep (c : Float) : Option Float := if c.abs ≥ tolerance then some c else none

/-- The difference of two polynomials, without the coefficients that count as zero. -/
def sub (p q : Polynomial) : Polynomial := ⟨Vector.zipWith subCoeff p.terms q.terms⟩

/-- Whether two polynomials have the same powers with equal coefficients. -/
def same (p q : Polynomial) : Bool := p.terms == q.terms

/-! ## Coefficients of differences -/

theorem getElem_terms_sub (p q : Polynomial) (k : Fin (maxPower + 1)) :
    (p.sub q).terms[k] = subCoeff p.terms[k] q.terms[k] := by
  simp [sub]

/-- A difference keeps no coefficient below the tolerance. -/
theorem le_abs_of_subCoeff {a b : Option Float} {c : Float} (h : subCoeff a b = some c) :
    tolerance ≤ c.abs := by
  have key {x : Float} (hx : subCoeff.keep x = some c) : tolerance ≤ c.abs := by
    unfold subCoeff.keep at hx
    split at hx
    · rename_i hle
      exact Option.some.inj hx ▸ hle
    · cases hx
  unfold subCoeff at h
  split at h
  · cases h
  · exact key h
  · exact key h

/-! ## Text -/

/-- A term without its sign. -/
def renderTerm (k : Nat) (c : Float) : String :=
  let number := Decimal.text c.abs
  match k with
  | 0 => number
  | k + 1 =>
    (if number = "1" then "" else number) ++ (if k = 0 then "x" else "x^" ++ toString (k + 1))

/-- The text of a polynomial. -/
def render (p : Polynomial) : String :=
  match p.monomials with
  | [] => "0"
  | (k, c) :: rest =>
    (if c < 0 then "-" else "") ++ renderTerm k c ++
      String.join (rest.map fun (k, c) => (if c < 0 then " - " else " + ") ++ renderTerm k c)

/-- The equation that says the polynomial is zero. -/
def standardForm (p : Polynomial) : String := p.render ++ " = 0"

end Polynomial

end Reckoner
