import Reckoner.Proofs.Double.Overflow
import Reckoner.Proofs.Equation.Dispatch
import Reckoner.Proofs.Polynomial.Exact

/-!
# Finite answers

The reader refuses terms that are not finite, and the solver checks nothing after that: like terms
that add up, the difference of the sides, the discriminant and a last division can each overflow.
An equation is answered with finite numbers alone exactly if none of these does
(`finite_solve_iff`). The roots of a quadratic equation need no condition of their own: with a
finite discriminant its leading coefficient is not small and its middle one not large, so neither
the square root nor the divisions overflow (`isFinite_roots`).
-/

namespace Reckoner

open Double Equation Reckoner.Polynomial

/-! ## Terms and their sums -/

theorem IsCoefficient.isFinite {text : List Char} {x : Float} (h : IsCoefficient text x) :
    x.isFinite = true := by
  cases h with
  | absent => exact (isExact_literal 1 (by decide)).isFinite
  | decimal _ finite => exact finite

theorem IsTerm.isFinite {text : List Char} {k : ℕ} {x : Float} (h : IsTerm text k x) :
    x.isFinite = true := by
  cases h with
  | constant _ finite => exact finite
  | unknown coefficient _ => exact coefficient.isFinite

theorem isFinite_signApply (sign : Sign) (x : Float) : (sign.apply x).isFinite = x.isFinite := by
  cases sign with
  | plus => rfl
  | minus => exact isFinite_neg x

theorem AreTerms.isFinite {text : List Char} {ts : List (ℕ × Float)} (h : AreTerms text ts) :
    ∀ t ∈ ts, t.2.isFinite = true := by
  induction h with
  | nil => exact List.forall_mem_nil _
  | cons sign term _ ih =>
    exact List.forall_mem_cons.2 ⟨(isFinite_signApply _ _).trans term.isFinite, ih⟩

/-- The terms that a text states are finite. -/
theorem IsSum.isFinite {text : List Char} {ts : List (ℕ × Float)} (h : IsSum text ts) :
    ∀ t ∈ ts, t.2.isFinite = true := by
  cases h with
  | signed terms _ => exact terms.isFinite
  | unsigned term more => exact List.forall_mem_cons.2 ⟨term.isFinite, more.isFinite⟩

/-- No sum of the first numbers overflows when the next one is added. -/
def SumFits (xs : List Float) : Prop :=
  ∀ ys y, ys ++ [y] <+: xs → BelowOverflow (value (ys.foldl (· + ·) 0) + value y)

/-- Like terms add up without overflow. -/
def SumsFit (ts : List (ℕ × Float)) : Prop := ∀ k, SumFits (coefficients ts k)

/-- **A sum of finite numbers is finite if no sum on the way overflows.** -/
theorem isFinite_foldl_add_iff {xs : List Float} (h : ∀ x ∈ xs, x.isFinite = true) :
    (xs.foldl (· + ·) 0).isFinite = true ↔ SumFits xs := by
  induction xs using List.reverseRecOn with
  | nil =>
    refine iff_of_true (isExact_literal 0 (by decide)).isFinite fun ys y hpre => ?_
    simp at hpre
  | append_singleton xs x ih =>
    have hx : x.isFinite = true := h x (by simp)
    have ih := ih fun y hy => h y (List.mem_append_left _ hy)
    have split : SumFits (xs ++ [x]) ↔
        SumFits xs ∧ BelowOverflow (value (xs.foldl (· + ·) 0) + value x) := by
      constructor
      · exact fun fits => ⟨fun ys y hpre => fits ys y (hpre.trans (List.prefix_append _ _)),
          fits xs x (List.prefix_refl _)⟩
      · rintro ⟨fits, last⟩ ys y hpre
        obtain heq | hpre := List.prefix_concat_iff.1 hpre
        · obtain ⟨rfl, hlast⟩ := List.append_inj' heq rfl
          rw [List.singleton_inj.1 hlast]
          exact last
        · exact fits ys y hpre
    rw [List.foldl_append, List.foldl_cons, List.foldl_nil, split, ← ih]
    constructor
    · intro hsum
      have hxs := (isFinite_of_add hsum).1
      exact ⟨hxs, (isFinite_add_iff hxs hx).1 hsum⟩
    · rintro ⟨hxs, last⟩
      exact (isFinite_add_iff hxs hx).2 last

/-- A polynomial has finite coefficients alone. -/
def Polynomial.IsFinite (p : Polynomial) : Prop := ∀ t ∈ p.monomials, t.2.isFinite = true

theorem Polynomial.isFinite_iff {p : Polynomial} :
    p.IsFinite ↔ ∀ k, (p.coeff k).isFinite = true := by
  have zero_finite : (0 : Float).isFinite = true := (isExact_literal 0 (by decide)).isFinite
  constructor
  · intro h k
    by_cases hk : k < maxPower + 1
    · have coeff := p.coeff_eq_getD ⟨k, hk⟩
      cases hc : p.terms.get ⟨k, hk⟩ with
      | none =>
        rw [hc] at coeff
        exact (congrArg Float.isFinite coeff).trans zero_finite
      | some c =>
        rw [hc] at coeff
        exact (congrArg Float.isFinite coeff).trans (h (k, c) (mem_monomials.2 ⟨_, rfl, hc⟩))
    · rw [coeff_of_lt (by omega)]
      exact zero_finite
  · rintro h ⟨k, c⟩ hmem
    obtain ⟨j, rfl, hj⟩ := mem_monomials.1 hmem
    have hc := h j
    rwa [coeff_eq_getD, hj] at hc

/-- **The polynomial of a text is finite if its like terms add up without overflow.** -/
theorem isFinite_iff_sumsFit {text : List Char} {ts : List (ℕ × Float)} {p : Polynomial}
    (h : States text ts) (total : p.IsTotal ts) : p.IsFinite ↔ SumsFit ts := by
  rw [isFinite_iff]
  refine forall_congr' fun k => ?_
  rw [total.coeff_eq]
  refine isFinite_foldl_add_iff fun x hx => ?_
  obtain ⟨t, ht, rfl⟩ := List.mem_map.1 hx
  exact h.isSum.isFinite t (List.mem_filter.1 ht).1

/-! ## The discriminant -/

/-- No operation on the way to the discriminant overflows. -/
structure DiscriminantFits (a b c : Float) : Prop where
  coefficients : a.isFinite = true ∧ b.isFinite = true ∧ c.isFinite = true
  square : BelowOverflow (value b * value b)
  four : BelowOverflow (4 * value a)
  product : BelowOverflow (value (4 * a) * value c)
  difference : BelowOverflow (value (b * b) - value (4 * a * c))

theorem isFinite_discriminant_iff {a b c : Float} :
    (discriminant a b c).isFinite = true ↔ DiscriminantFits a b c := by
  have four : IsExact 4 (4 : ℤ) := isExact_literal 4 (by decide)
  have value_four : value 4 = 4 := four.value_eq
  unfold discriminant
  constructor
  · intro h
    obtain ⟨hsquare, hproduct⟩ := isFinite_of_sub h
    obtain ⟨hb, -⟩ := isFinite_of_mul hsquare
    obtain ⟨hfour, hc⟩ := isFinite_of_mul hproduct
    obtain ⟨-, ha⟩ := isFinite_of_mul hfour
    refine ⟨⟨ha, hb, hc⟩, (isRounded_mul hb hb).isFinite_iff.1 hsquare, ?_,
      (isRounded_mul hfour hc).isFinite_iff.1 hproduct,
      (isRounded_sub hsquare hproduct).isFinite_iff.1 h⟩
    have fits := (isRounded_mul four.isFinite ha).isFinite_iff.1 hfour
    rwa [value_four] at fits
  · rintro ⟨⟨ha, hb, hc⟩, square, fourfold, product, difference⟩
    rw [← value_four] at fourfold
    have hsquare := (isRounded_mul hb hb).isFinite_iff.2 square
    have hfour := (isRounded_mul four.isFinite ha).isFinite_iff.2 fourfold
    have hproduct := (isRounded_mul hfour hc).isFinite_iff.2 product
    exact (isRounded_sub hsquare hproduct).isFinite_iff.2 difference

/-! ## Roots -/

/-- The numbers that solutions carry. -/
def Solution.numbers : Solution → List Float
  | .everything => []
  | .nothing => []
  | .single x => [x]
  | .double x => [x]
  | .reals x₁ x₂ => [x₁, x₂]
  | .complex re im => [re, im]

theorem ne_zero_of_two_pow_le {q : ℚ} {j : ℤ} (h : (2 : ℚ) ^ j ≤ |q|) : q ≠ 0 := by
  have pos : (0 : ℚ) < 2 ^ j := by positivity
  exact abs_pos.1 (pos.trans_le h)

/-- A quotient of bounded numbers is bounded. -/
theorem abs_div_le {p q : ℚ} {i j : ℤ} (hp : |p| ≤ 2 ^ i) (hq : 2 ^ j ≤ |q|) :
    |p / q| ≤ 2 ^ (i - j) := by
  have pos : (0 : ℚ) < 2 ^ j := by positivity
  rw [abs_div, zpow_sub₀ two_ne_zero]
  exact div_le_div₀ (by positivity) hp pos hq

section Roots

variable {a b c : Float}

/-- A leading coefficient that reaches the tolerance can be divided by. -/
theorem isFinite_root (ha : a.isFinite = true) (leading : tolerance ≤ a.abs)
    (fits : BelowOverflow (4 * value a)) {u : Float} (hu : u.isFinite = true)
    (bound : |value u| ≤ 2 ^ (514 : ℤ)) : (u / (2 * a)).isFinite = true := by
  have two : IsExact 2 (2 : ℤ) := isExact_literal 2 (by decide)
  have value_two : value 2 = 2 := two.value_eq
  have rounded := isRounded_mul two.isFinite ha
  rw [value_two] at rounded
  have small : |2 * value a| ≤ |4 * value a| := by
    rw [abs_mul, abs_mul]
    refine mul_le_mul_of_nonneg_right ?_ (abs_nonneg _)
    norm_num
  have finite := rounded.isFinite_iff.2 (small.trans_lt fits)
  have twice : (2 : ℚ) ^ (-29 : ℤ) ≤ |2 * value a| := by
    have split : (2 : ℚ) ^ (-29 : ℤ) = 2 * 2 ^ (-30 : ℤ) := by
      rw [← zpow_one_add₀ two_ne_zero]
      rfl
    rw [abs_mul, split, abs_of_pos (two_pos : (0 : ℚ) < 2)]
    exact mul_le_mul_of_nonneg_left (two_pow_le_of_tolerance_le ha leading) two_pos.le
  have divisor := rounded.le_abs_value (by decide) finite twice
  have quotient := isRounded_div hu finite (ne_zero_of_two_pow_le divisor)
  exact quotient.isFinite_iff.2 (belowOverflow_of_le (by decide) (abs_div_le bound divisor))

/-- Numbers below the square root of the limit. -/
theorem abs_le_of_fits_square {q : ℚ} (h : BelowOverflow (q * q)) : |q| ≤ 2 ^ (512 : ℤ) := by
  have square : (2 : ℚ) ^ (1024 : ℤ) = 2 ^ (512 : ℤ) * 2 ^ (512 : ℤ) := by
    rw [← zpow_add₀ two_ne_zero]
    rfl
  have le : |q| * |q| ≤ 2 ^ (512 : ℤ) * 2 ^ (512 : ℤ) := by
    rw [← abs_mul, ← square]
    exact h.le.trans (sub_le_self _ (by positivity))
  exact (mul_self_le_mul_self_iff (abs_nonneg q) (by positivity)).2 le

theorem value_ne_zero_of_not_negligible {x : Float} (hx : x.isFinite = true)
    (h : isNegligible x = false) : value x ≠ 0 := by
  obtain ⟨finite, pos, -⟩ := tolerance_bounds
  have exact_abs := (IsExact.mk hx rfl).abs
  intro hzero
  have small : x.abs < tolerance := by
    rw [lt_iff exact_abs.isFinite finite, exact_abs.value_eq, hzero, abs_zero]
    exact pos
  rw [isNegligible, decide_eq_true small] at h
  cases h

theorem abs_value_neg (x : Float) : |value (-x)| = |value x| := by rw [value_neg, abs_neg]

/-- A sum of bounded numbers over such a coefficient. -/
theorem isFinite_root_add (ha : a.isFinite = true) (leading : tolerance ≤ a.abs)
    (fits : BelowOverflow (4 * value a)) {u v : Float} (hu : u.isFinite = true)
    (hv : v.isFinite = true)
    (bound_u : |value u| ≤ 2 ^ (512 : ℤ)) (bound_v : |value v| ≤ 2 ^ (513 : ℤ)) :
    ((u + v) / (2 * a)).isFinite = true := by
  have sum := isRounded_add hu hv
  have bound : |value u + value v| ≤ 2 ^ (514 : ℤ) := by
    have double : (2 : ℚ) ^ (514 : ℤ) = 2 ^ (513 : ℤ) + 2 ^ (513 : ℤ) := by
      rw [← two_mul, ← zpow_one_add₀ two_ne_zero]
      rfl
    have less : (2 : ℚ) ^ (512 : ℤ) ≤ 2 ^ (513 : ℤ) := zpow_le_zpow_right₀ one_le_two (by decide)
    rw [double]
    exact (abs_add_le _ _).trans (add_le_add (bound_u.trans less) bound_v)
  exact isFinite_root ha leading fits (sum.isFinite_iff.2 (belowOverflow_of_le (by decide) bound))
    (sum.abs_value_le (by decide) bound)

/-- The root of a positive discriminant is bounded. -/
theorem sqrt_discriminant_bounds {delta : Float} (finite : delta.isFinite = true)
    (pos : 0 < value delta) :
    delta.sqrt.isFinite = true ∧ |value delta.sqrt| ≤ 2 ^ (513 : ℤ) := by
  have square : (2 : ℚ) ^ (1024 : ℤ) = (2 ^ (512 : ℤ)) ^ 2 := by
    rw [sq, ← zpow_add₀ two_ne_zero]
    rfl
  have bound : value delta ≤ (2 ^ (512 : ℤ)) ^ 2 := by
    rw [← square]
    exact (le_abs_self _).trans
      ((belowOverflow_value finite).le.trans (sub_le_self _ (by positivity)))
  exact sqrt_bounds finite pos (j := 512) (by decide) (by decide) bound

/-- **With a finite discriminant the roots of a quadratic equation are finite.** -/
theorem isFinite_roots (leading : tolerance ≤ a.abs) (fits : DiscriminantFits a b c) :
    ∀ x ∈ (roots a b (discriminant a b c)).1.numbers, x.isFinite = true := by
  have finite := isFinite_discriminant_iff.2 fits
  obtain ⟨⟨ha, hb, -⟩, square, four, -, -⟩ := fits
  generalize discriminant a b c = delta at finite
  have zero : IsExact 0 (0 : ℤ) := isExact_literal 0 (by decide)
  have finite_b : (-b).isFinite = true := (isFinite_neg b).trans hb
  have bound_b : |value (-b)| ≤ 2 ^ (512 : ℤ) :=
    (abs_value_neg b).trans_le (abs_le_of_fits_square square)
  have middle : (-b / (2 * a)).isFinite = true :=
    isFinite_root ha leading four finite_b
      (bound_b.trans (zpow_le_zpow_right₀ one_le_two (by decide)))
  have root {v : Float} (hv : v.isFinite = true) (bound : |value v| ≤ 2 ^ (513 : ℤ)) :
      ((-b + v) / (2 * a)).isFinite = true :=
    isFinite_root_add ha leading four finite_b hv bound_b bound
  unfold roots
  dsimp only
  split_ifs with negligible positive
  · simp [Solution.numbers, middle]
  · rw [lt_iff zero.isFinite finite, zero.value_eq, Int.cast_zero] at positive
    obtain ⟨finite_r, bound_r⟩ := sqrt_discriminant_bounds finite positive
    have second := root ((isFinite_neg delta.sqrt).trans finite_r)
      ((abs_value_neg delta.sqrt).trans_le bound_r)
    rw [← sub_eq_add] at second
    simp [Solution.numbers, root finite_r bound_r, second]
  · rw [lt_iff zero.isFinite finite, zero.value_eq, Int.cast_zero] at positive
    have hne := value_ne_zero_of_not_negligible finite (by simpa using negligible)
    have negative : 0 < value (-delta) := by
      rw [value_neg]
      exact neg_pos.2 (lt_of_le_of_ne (not_lt.1 positive) hne)
    obtain ⟨finite_r, bound_r⟩ :=
      sqrt_discriminant_bounds ((isFinite_neg delta).trans finite) negative
    have imaginary := isFinite_root ha leading four finite_r
      (bound_r.trans (zpow_le_zpow_right₀ one_le_two (by decide)))
    simp [Solution.numbers, middle, imaginary]

end Roots

/-! ## Answers -/

/-- A coefficient that reaches the tolerance is finite or infinite, nothing else. -/
theorem exists_infinity_of_tolerance_le {x : Float} (h : tolerance ≤ x.abs)
    (hx : x.isFinite = false) : ∃ s, unpack x = .infinity s := by
  have special : ¬tolerance ≤ (pack .notANumber).abs := by decide +kernel
  rw [isFinite_eq] at hx
  cases hu : unpack x with
  | infinity s => exact ⟨s, rfl⟩
  | notANumber =>
    rw [← pack_unpack x, hu] at h
    exact absurd h special
  | zero | finite =>
    rw [hu] at hx
    cases hx

/-- The root of a linear equation. With an infinite leading coefficient it is zero. -/
theorem isFinite_linear_iff {a b : Float} (leading : tolerance ≤ a.abs) :
    (-b / a).isFinite = true ↔
      b.isFinite = true ∧ (a.isFinite = true → BelowOverflow (value b / value a)) := by
  have quotient (hb : b.isFinite = true) (ha : a.isFinite = true) :
      (-b / a).isFinite = true ↔ BelowOverflow (value b / value a) := by
    have hne := ne_zero_of_two_pow_le (two_pow_le_of_tolerance_le ha leading)
    rw [(isRounded_div ((isFinite_neg b).trans hb) ha hne).isFinite_iff, value_neg, neg_div,
      BelowOverflow, abs_neg, BelowOverflow]
  constructor
  · intro h
    have hb : b.isFinite = true := (isFinite_neg b).symm.trans (isFinite_of_div h)
    exact ⟨hb, fun ha => (quotient hb ha).1 h⟩
  · rintro ⟨hb, fits⟩
    by_cases ha : a.isFinite = true
    · exact (quotient hb ha).2 (fits ha)
    · obtain ⟨s, hs⟩ := exists_infinity_of_tolerance_le leading (by simpa using ha)
      exact isFinite_div_of_infinite ((isFinite_neg b).trans hb) hs

/-- What has to stay below the limit once the sides were subtracted. -/
structure AnswerFits (p : Polynomial) : Prop where
  linear : p.degree = 1 → (p.coeff 0).isFinite = true ∧
    ((p.coeff 1).isFinite = true → BelowOverflow (value (p.coeff 0) / value (p.coeff 1)))
  quadratic : p.degree = 2 → DiscriminantFits (p.coeff 2) (p.coeff 1) (p.coeff 0)

/-- An answer has finite numbers alone. -/
structure Resolution.IsFinite (resolution : Resolution) : Prop where
  discriminant : ∀ delta, resolution.discriminant = some delta → delta.isFinite = true
  solution : ∀ x ∈ resolution.solution.numbers, x.isFinite = true

theorem Resolution.isFinite_iff_answerFits {p q : Polynomial}
    {s : Solution × List String × Option Float} {resolution : Resolution}
    (hs : solvePolynomial (p.sub q) (max p.degree q.degree) = .ok s)
    (solution : resolution.solution = s.1) (discriminant : resolution.discriminant = s.2.2) :
    resolution.IsFinite ↔ AnswerFits (p.sub q) := by
  have cases : (p.sub q).degree = 0 ∨ (p.sub q).degree = 1 ∨ (p.sub q).degree = 2 ∨
      3 ≤ (p.sub q).degree := by omega
  obtain h | h | h | h := cases
  · have stated : max p.degree q.degree ≠ 0 := fun zero => by
      rw [zero, solvePolynomial_unstated h] at hs
      cases hs
    rw [solvePolynomial_linear (by omega) stated] at hs
    cases hs
    have constant := coeff_eq_zero_of_degree_lt (p := p.sub q) (k := 1) (by omega)
    rw [constant, solveLinear_of_negligible isNegligible_zero] at solution
    refine iff_of_true ⟨by simp [discriminant], fun x hx => ?_⟩ ⟨by omega, by omega⟩
    rw [solution] at hx
    split at hx <;> cases hx
  · have stated : max p.degree q.degree ≠ 0 := by
      have := degree_sub_le p q
      omega
    have leading := @tolerance_le_coeff_degree p q (by omega)
    rw [h] at leading
    rw [solvePolynomial_linear (by omega) stated] at hs
    cases hs
    rw [solveLinear_of_not_negligible (isNegligible_of_le leading)] at solution
    have single : resolution.IsFinite ↔
        (-(p.sub q).coeff 0 / (p.sub q).coeff 1).isFinite = true := by
      refine ⟨fun finite => ?_, fun finite => ⟨by simp [discriminant], ?_⟩⟩
      · exact finite.solution _ (by simp [solution, Solution.numbers])
      · simp [solution, Solution.numbers, finite]
    rw [single, isFinite_linear_iff leading]
    exact ⟨fun fits => ⟨fun _ => fits, by omega⟩, fun fits => fits.linear h⟩
  · have leading := @tolerance_le_coeff_degree p q (by omega)
    rw [h] at leading
    rw [solvePolynomial_quadratic h] at hs
    cases hs
    constructor
    · intro finite
      have fits := isFinite_discriminant_iff.1 (finite.discriminant _ discriminant)
      exact ⟨by omega, fun _ => fits⟩
    · intro fits
      have fits := fits.quadratic h
      refine ⟨fun delta hdelta => ?_, fun x hx => ?_⟩
      · rw [discriminant] at hdelta
        cases hdelta
        exact isFinite_discriminant_iff.2 fits
      · rw [solution] at hx
        exact isFinite_roots leading fits x hx
  · rw [solvePolynomial_of_three_le h] at hs
    cases hs

/-- **An equation is answered with finite numbers alone exactly if nothing on the way overflows**:
the sums of like terms, then the constant and the quotient of a linear equation, or the operations
of the discriminant of a quadratic one. -/
theorem finite_solve_iff {text : List Char} {resolution : Resolution}
    (h : solve text = .ok resolution) :
    ∃ left right ts us l r, text = left ++ '=' :: right ∧ States left ts ∧ States right us ∧
      ofText? left = some l ∧ ofText? right = some r ∧
      (l.IsFinite ∧ r.IsFinite ∧ resolution.IsFinite ↔
        SumsFit ts ∧ SumsFit us ∧ AnswerFits (l.sub r)) := by
  obtain ⟨left, right, l, r, s, hsides, hl, hr, hs, solution, discriminant⟩ :=
    exists_sides_of_solve_eq_ok h
  obtain ⟨vs, hvs, rfl⟩ := ofText?_eq_some_iff.1 hl
  obtain ⟨ws, hws, rfl⟩ := ofText?_eq_some_iff.1 hr
  refine ⟨left, right, _, _, _, _, (sides?_eq_some_iff.1 hsides).1, hvs, hws, hl, hr, ?_⟩
  rw [isFinite_iff_sumsFit hvs (isTotal_addTerms vs), isFinite_iff_sumsFit hws (isTotal_addTerms ws),
    Resolution.isFinite_iff_answerFits hs solution discriminant]

/-- The answer to `x² - 3 x = 4`. -/
theorem finite_solve_two_roots :
    ∃ resolution, solve "x^2-3x=4".toList = .ok resolution ∧
      ∃ left right ts us l r, "x^2-3x=4".toList = left ++ '=' :: right ∧ States left ts ∧
        States right us ∧ ofText? left = some l ∧ ofText? right = some r ∧
        (l.IsFinite ∧ r.IsFinite ∧ resolution.IsFinite ↔
          SumsFit ts ∧ SumsFit us ∧ AnswerFits (l.sub r)) := by
  have sides : sides? "x^2-3x=4".toList = some ("x^2-3x".toList, ['4']) := rfl
  obtain ⟨l, r, hl, hr, degree⟩ : ∃ l r, ofText? "x^2-3x".toList = some l ∧
      ofText? ['4'] = some r ∧ (l.sub r).degree = 2 := ⟨_, _, rfl, rfl, by decide +kernel⟩
  obtain ⟨resolution, hok, -⟩ := solve_eq_ok_of_sides sides hl hr (solvePolynomial_quadratic degree)
  exact ⟨resolution, hok, finite_solve_iff hok⟩

/-- In `x = 1e308 + 1e308` the constants add up to infinity, and the answer is not finite. -/
theorem not_isFinite_solve_sum :
    ∃ resolution, solve "x=1e308+1e308".toList = .ok resolution ∧ ¬resolution.IsFinite := by
  have sides : sides? "x=1e308+1e308".toList = some (['x'], "1e308+1e308".toList) := rfl
  have overflows : (ofText? ['x']).any fun l => (ofText? "1e308+1e308".toList).any fun r =>
      (l.sub r).degree ≤ 1 ∧ max l.degree r.degree ≠ 0 ∧
        isNegligible ((l.sub r).coeff 1) = false ∧
        (-(l.sub r).coeff 0 / (l.sub r).coeff 1).isFinite = false := by decide +kernel
  obtain ⟨l, hl, overflows⟩ := (Option.any_eq_true ..).1 overflows
  obtain ⟨r, hr, overflows⟩ := (Option.any_eq_true ..).1 overflows
  obtain ⟨degree, stated, leading, infinite⟩ := of_decide_eq_true overflows
  obtain ⟨resolution, hok, solution, -⟩ :=
    solve_eq_ok_of_sides sides hl hr (solvePolynomial_linear degree stated)
  rw [solveLinear_of_not_negligible leading] at solution
  refine ⟨resolution, hok, fun finite => ?_⟩
  have root := finite.solution _ (by rw [solution]; exact List.mem_singleton_self _)
  rw [infinite] at root
  cases root

end Reckoner
