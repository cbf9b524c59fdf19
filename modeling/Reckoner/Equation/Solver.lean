import Reckoner.Equation.Solution
import Reckoner.Fault
import Reckoner.Polynomial.Reader

/-!
# Solving equations

An equation is two polynomials with one equal sign between them. Their difference is set to zero
and solved by its degree: nothing left, one root, or the quadratic formula; a greater degree is
refused, and so is an equation that states no term with the unknown. The steps on the way are kept
as sentences.
-/

namespace Reckoner

/-- A solved equation. -/
structure Resolution where
  solution : Solution
  /-- The equation with zero on its right. -/
  standardForm : String
  /-- The discriminant, for degree two. -/
  discriminant : Option Float
  /-- What was done, one sentence a step. -/
  steps : List String

namespace Equation

/-- The texts left and right of the one equal sign. -/
def sides? (text : List Char) : Option (List Char × List Char) :=
  match text.dropWhile (· ≠ '=') with
  | [] => none
  | _ :: right => if right.contains '=' then none else some (text.takeWhile (· ≠ '='), right)

/-- The sides are what stands around an equal sign that is the only one. -/
theorem sides?_eq_some_iff {text left right : List Char} :
    sides? text = some (left, right) ↔
      text = left ++ '=' :: right ∧ '=' ∉ left ∧ '=' ∉ right := by
  induction text generalizing left with
  | nil => simp [sides?]
  | cons c cs ih =>
    by_cases hc : c = '='
    · subst hc
      by_cases hr : '=' ∈ cs
      · constructor
        · intro h
          simp [sides?, hr] at h
        · rintro ⟨h₁, h₂, h₃⟩
          cases left with
          | nil => cases h₁; exact absurd hr h₃
          | cons d left => cases h₁; simp at h₂
      · constructor
        · intro h
          simp only [sides?, ne_eq, not_true_eq_false, decide_false, List.dropWhile_cons,
            Bool.false_eq_true, reduceIte, List.contains_eq_mem, hr, List.takeWhile_cons,
            Option.some.injEq, Prod.mk.injEq] at h
          obtain ⟨rfl, rfl⟩ := h
          exact ⟨rfl, by simp, hr⟩
        · rintro ⟨h₁, h₂, h₃⟩
          cases left with
          | nil => cases h₁; simp [sides?, hr]
          | cons d left => cases h₁; simp at h₂
    · have step : sides? (c :: cs) = (sides? cs).map fun s => (c :: s.1, s.2) := by
        simp only [sides?, List.dropWhile_cons, List.takeWhile_cons, ne_eq, hc, not_false_eq_true,
          decide_true, reduceIte]
        split
        · rfl
        · split <;> rfl
      rw [step, Option.map_eq_some_iff]
      constructor
      · rintro ⟨⟨l, r⟩, h, he⟩
        cases he
        obtain ⟨rfl, h₂, h₃⟩ := ih.1 h
        exact ⟨rfl, by simp [h₂, Ne.symm hc], h₃⟩
      · rintro ⟨h₁, h₂, h₃⟩
        cases left with
        | nil => cases h₁; exact absurd rfl hc
        | cons d left =>
          cases h₁
          exact ⟨(left, right), ih.2 ⟨rfl, fun h => h₂ (List.mem_cons_of_mem _ h), h₃⟩, rfl⟩

/-- Whether a value counts as zero. -/
def isNegligible (x : Float) : Bool := x.abs < tolerance

/-- Solve `a x + b = 0`. -/
def solveLinear (a b : Float) : Solution × List String :=
  if isNegligible a then
    if isNegligible b then (.everything, ["Les termes en x s’annulent : 0 = 0"])
    else (.nothing, ["Les termes en x s’annulent : " ++ Decimal.text b ++ " = 0"])
  else (.single (-b / a), ["x = -(" ++ Decimal.text b ++ ") / " ++ Decimal.text a])

/-- The discriminant of `a x² + b x + c`. -/
def discriminant (a b c : Float) : Float := b * b - 4 * a * c

/-- The roots of `a x² + b x + c` whose discriminant is `delta`, and the case that it falls in. -/
def roots (a b delta : Float) : Solution × String :=
  let twice := 2 * a
  if isNegligible delta then (.double (-b / twice), "Δ = 0 : une racine double")
  else if 0 < delta then
    let r := delta.sqrt
    (.reals ((-b + r) / twice) ((-b - r) / twice), "Δ > 0 : deux racines réelles")
  else
    (.complex (-b / twice) ((-delta).sqrt / twice), "Δ < 0 : deux racines complexes conjuguées")

/-- Solve `a x² + b x + c = 0`. -/
def solveQuadratic (a b c : Float) : Solution × List String :=
  let delta := discriminant a b c
  let (solution, case) := roots a b delta
  (solution,
    ["a = " ++ Decimal.text a ++ ", b = " ++ Decimal.text b ++ ", c = " ++ Decimal.text c,
      "Discriminant : Δ = b² - 4ac = " ++ Decimal.text delta,
      case])

/-- Solve the equation that a polynomial is zero; `stated` is the greatest power in its
statement. -/
def solvePolynomial (p : Polynomial) (stated : Nat) :
    Except Fault (Solution × List String × Option Float) :=
  match p.degree with
  | 0 | 1 =>
    if p.degree = 0 ∧ stated = 0 then .error (.unsolvable .noUnknown)
    else
      let (solution, steps) := solveLinear (p.coeff 1) (p.coeff 0)
      .ok (solution, steps, none)
  | 2 =>
    let (solution, steps) := solveQuadratic (p.coeff 2) (p.coeff 1) (p.coeff 0)
    .ok (solution, steps, some (discriminant (p.coeff 2) (p.coeff 1) (p.coeff 0)))
  | d => .error (.unsolvable (.degree d))

/-- The polynomial of a side of an equation. -/
def readSide (obstacle : List Char → Obstacle) (text : List Char) : Except Fault Polynomial :=
  match Polynomial.ofText? text with
  | some p => .ok p
  | none => .error (.unsolvable (obstacle text))

/-- Solve the equation that a text states. -/
def solve (text : List Char) : Except Fault Resolution :=
  match sides? text with
  | none => .error (.unsolvable .equalSigns)
  | some (left, right) => do
    let l ← readSide .leftSide left
    let r ← readSide .rightSide right
    let p := l.sub r
    let (solution, steps, discriminant) ← solvePolynomial p (max l.degree r.degree)
    return {
      solution
      standardForm := p.standardForm
      discriminant
      steps :=
        ["Équation : " ++ String.ofList left ++ " = " ++ String.ofList right,
          "Forme standard : " ++ p.standardForm] ++
        steps ++ ["Réponse : " ++ solution.answer] }

end Equation

end Reckoner
