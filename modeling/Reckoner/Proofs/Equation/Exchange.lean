import Mathlib.Data.Option.Basic
import Reckoner.Proofs.Equation.Degrees
import Reckoner.Proofs.Polynomial.Difference

/-!
# Exchanging the sides of an equation

With the sides exchanged, the difference of the two polynomials has the opposite coefficients, bit
by bit wherever a power is left. Every rounding commutes with that change of sign, so the solutions
stay what they are, also where a coefficient has become infinite: a root is the same, the two real
roots change places because the sign of the leading coefficient does, and the imaginary part changes
its sign (`Solution.Mirrors`, `solve_exchange`). All values are compared up to the sign of zero, and
there is only one NaN.
-/

namespace Reckoner

open Double Equation

/-- The solutions of an equation, and those with its sides exchanged. -/
inductive Solution.Mirrors : Solution → Solution → Prop
  | everything : Mirrors .everything .everything
  | nothing : Mirrors .nothing .nothing
  | single {x y : Float} (h : Alike x y) : Mirrors (.single x) (.single y)
  | double {x y : Float} (h : Alike x y) : Mirrors (.double x) (.double y)
  | reals {x₁ x₂ y₁ y₂ : Float} (first : Alike x₁ y₂) (second : Alike x₂ y₁) :
    Mirrors (.reals x₁ x₂) (.reals y₁ y₂)
  | complex {re im re' im' : Float} (same : Alike re re') (opposite : Alike im' (-im)) :
    Mirrors (.complex re im) (.complex re' im')

/-! ## Values that count as zero -/

theorem isNegligible_of_alike {x y : Float} (h : Alike x y) : isNegligible x = isNegligible y := by
  rw [isNegligible, h.abs_eq, isNegligible]

theorem isNegligible_neg (x : Float) : isNegligible (-x) = isNegligible x := by
  rw [isNegligible, abs_opposite, isNegligible]

theorem isNegligible_of_isZero {x : Float} (h : IsZero x) : isNegligible x = true := by
  have small : decide ((0 : Float) < tolerance) = true := by decide +kernel
  rw [isNegligible, h.abs_eq, small]

/-- Only numbers that count as zero have a sign that may be lost. -/
theorem eq_of_alike {x y : Float} (h : Alike x y) (hx : ¬isNegligible x = true) : x = y :=
  h.eq_of_not_isZero fun hz => hx (isNegligible_of_isZero hz)

/-! ## Formulas -/

/-- A quotient does not change with the signs of both its operands. -/
theorem div_alike {x y t : Float} (h : Alike y (-x)) : Alike (x / t) (y / -t) := by
  rw [div_neg_right, ← div_neg_left]
  refine Alike.div_right ?_ t
  have hneg := h.neg
  rw [opposite_opposite] at hneg
  exact hneg.symm

theorem mirrors_solveLinear {a b a' b' : Float} (ha : Alike a' (-a)) (hb : Alike b' (-b)) :
    (solveLinear a b).1.Mirrors (solveLinear a' b').1 := by
  have hna : isNegligible a' = isNegligible a :=
    (isNegligible_of_alike ha).trans (isNegligible_neg a)
  have hnb : isNegligible b' = isNegligible b :=
    (isNegligible_of_alike hb).trans (isNegligible_neg b)
  unfold solveLinear
  rw [hna, hnb]
  by_cases ha0 : isNegligible a = true
  · rw [if_pos ha0, if_pos ha0]
    by_cases hb0 : isNegligible b = true
    · rw [if_pos hb0, if_pos hb0]
      exact .everything
    · rw [if_neg hb0, if_neg hb0]
      exact .nothing
  · rw [if_neg ha0, if_neg ha0]
    obtain rfl := eq_of_alike ha (hna ▸ ha0)
    exact .single (div_alike hb.neg)

/-- **The discriminant stays.** -/
theorem discriminant_alike {a b c b' c' : Float} (hb : Alike b' (-b)) (hc : Alike c' (-c)) :
    Alike (discriminant a b c) (discriminant (-a) b' c') := by
  have square : Alike (b' * b') (b * b) := by
    have h := hb.mul hb
    rwa [mul_neg_left, mul_neg_right, opposite_opposite] at h
  have product : Alike (4 * -a * c') (4 * a * c) := by
    have signs : 4 * -a * -c = 4 * a * c := by
      rw [mul_neg_right 4, mul_neg_left, mul_neg_right, opposite_opposite]
    exact signs ▸ (Alike.refl (4 * -a)).mul hc
  exact (square.sub product).symm

/-- The roots with the positive and with the negative square root change places. -/
theorem mirrors_roots {a b b' δ δ' : Float} (hb : Alike b' (-b)) (hδ : Alike δ δ') :
    (roots a b δ).1.Mirrors (roots (-a) b' δ').1 := by
  have twice : 2 * -a = -(2 * a) := mul_neg_right 2 a
  have middle : Alike (-b / (2 * a)) (-b' / -(2 * a)) := div_alike hb.neg
  dsimp only [roots]
  rw [twice, ← isNegligible_of_alike hδ]
  by_cases hzero : isNegligible δ = true
  · rw [if_pos hzero, if_pos hzero]
    exact .double middle
  rw [if_neg hzero, if_neg hzero, ← eq_of_alike hδ hzero]
  by_cases hpos : 0 < δ
  · rw [if_pos hpos, if_pos hpos]
    set r := δ.sqrt
    have minus : Alike (-b' - r) (-(-b + r)) := by
      have h := hb.neg.sub (.refl r)
      rw [sub_eq_add (- -b)] at h
      exact h.trans (neg_add_alike (-b) r)
    have plus : Alike (-b' + r) (-(-b - r)) := by
      have h := hb.neg.add (.refl r)
      have swap := neg_add_alike (-b) (-r)
      rw [opposite_opposite r, ← sub_eq_add] at swap
      exact h.trans swap
    exact .reals (div_alike minus) (div_alike plus)
  · rw [if_neg hpos, if_neg hpos]
    refine .complex middle ?_
    rw [div_neg_right]
    exact .refl _

/-! ## Equations -/

/-- What is kept of a solution to compare it: the solution itself and the discriminant. -/
def Exchanged (s t : Solution × List String × Option Float) : Prop :=
  s.1.Mirrors t.1 ∧ Option.Rel Alike s.2.2 t.2.2

/-- **Opposite coefficients have mirrored solutions**, or both are refused. -/
theorem exchanged_solvePolynomial (p : Polynomial) {stated : Nat} (h : p.degree ≤ stated) :
    (∃ s t, solvePolynomial p stated = .ok s ∧ solvePolynomial p.opposite stated = .ok t ∧
      Exchanged s t) ∨
    ∃ why, solvePolynomial p stated = .error (.unsolvable why) ∧
      solvePolynomial p.opposite stated = .error (.unsolvable why) := by
  have hd := p.degree_opposite
  obtain low | two | high : p.degree ≤ 1 ∨ p.degree = 2 ∨ 3 ≤ p.degree := by omega
  · by_cases hs : stated = 0
    · subst hs
      have none_left := Nat.le_zero.1 h
      exact .inr ⟨_, solvePolynomial_unstated none_left,
        solvePolynomial_unstated (hd.trans none_left)⟩
    · exact .inl ⟨_, _, solvePolynomial_linear low hs, solvePolynomial_linear (hd.trans_le low) hs,
        mirrors_solveLinear (p.coeff_opposite 1) (p.coeff_opposite 0), .none⟩
  · have leading : p.opposite.coeff 2 = -p.coeff 2 := by
      have h := p.coeff_opposite_degree (by omega)
      rwa [two] at h
    have hδ := @discriminant_alike (p.coeff 2) _ _ _ _ (p.coeff_opposite 1) (p.coeff_opposite 0)
    refine .inl ⟨_, _, solvePolynomial_quadratic two, solvePolynomial_quadratic (hd.trans two), ?_⟩
    rw [leading]
    exact ⟨mirrors_roots (p.coeff_opposite 1) hδ, .some hδ⟩
  · have refused : solvePolynomial p.opposite stated =
        .error (.unsolvable (.degree p.opposite.degree)) :=
      solvePolynomial_of_three_le (high.trans_eq hd.symm)
    rw [hd] at refused
    exact .inr ⟨_, solvePolynomial_of_three_le high, refused⟩

/-- **Exchanging the sides of an equation does not change its solutions.** -/
theorem solve_exchange (left right : List Char) (hl : '=' ∉ left) (hr : '=' ∉ right) :
    (∃ r s, solve (left ++ '=' :: right) = .ok r ∧ solve (right ++ '=' :: left) = .ok s ∧
      r.solution.Mirrors s.solution ∧ Option.Rel Alike r.discriminant s.discriminant) ∨
    ∃ why why', solve (left ++ '=' :: right) = .error (.unsolvable why) ∧
      solve (right ++ '=' :: left) = .error (.unsolvable why') := by
  have sides : sides? (left ++ '=' :: right) = some (left, right) :=
    sides?_eq_some_iff.2 ⟨rfl, hl, hr⟩
  have sides' : sides? (right ++ '=' :: left) = some (right, left) :=
    sides?_eq_some_iff.2 ⟨rfl, hr, hl⟩
  by_cases hnone : Polynomial.ofText? left = none ∨ Polynomial.ofText? right = none
  · obtain ⟨why, h⟩ := exists_solve_eq_error sides hnone
    obtain ⟨why', h'⟩ := exists_solve_eq_error sides' hnone.symm
    exact .inr ⟨why, why', h, h'⟩
  · obtain ⟨hp, hq⟩ := not_or.1 hnone
    obtain ⟨p, hp⟩ := Option.ne_none_iff_exists'.1 hp
    obtain ⟨q, hq⟩ := Option.ne_none_iff_exists'.1 hq
    have swap : q.sub p = (p.sub q).opposite := p.sub_swap q
    obtain ⟨s, t, hs, ht, hst⟩ | ⟨why, hs, ht⟩ := exchanged_solvePolynomial _ (p.degree_sub_le q)
    · rw [← swap, max_comm] at ht
      obtain ⟨r, hr, hsol, hdisc, -⟩ := solve_eq_ok_of_sides sides hp hq hs
      obtain ⟨r', hr', hsol', hdisc', -⟩ := solve_eq_ok_of_sides sides' hq hp ht
      refine .inl ⟨r, r', hr, hr', ?_⟩
      rw [hsol, hsol', hdisc, hdisc']
      exact hst
    · rw [← swap, max_comm] at ht
      exact .inr ⟨why, why, solve_eq_error_of_sides sides hp hq hs,
        solve_eq_error_of_sides sides' hq hp ht⟩

/-- The roots of `2 x² - 3 x = 5` change places. -/
theorem solve_exchange_two_roots :
    ('=' ∉ "2x^2-3x".toList ∧ '=' ∉ "5".toList) ∧
    ∃ r s, solve "2x^2-3x=5".toList = .ok r ∧ solve "5=2x^2-3x".toList = .ok s ∧
      r.solution.Mirrors s.solution ∧ Option.Rel Alike r.discriminant s.discriminant := by
  have left : '=' ∉ "2x^2-3x".toList := by decide
  have right : '=' ∉ "5".toList := by decide
  have solved : (solve "2x^2-3x=5".toList).isOk = true := by decide +kernel
  refine ⟨⟨left, right⟩, (solve_exchange _ _ left right).resolve_right ?_⟩
  rintro ⟨why, -, refused, -⟩
  have text : "2x^2-3x".toList ++ '=' :: "5".toList = "2x^2-3x=5".toList := rfl
  rw [← text, refused] at solved
  cases solved

end Reckoner
