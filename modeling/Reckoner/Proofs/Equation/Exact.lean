import Reckoner.Proofs.Equation.Degrees
import Reckoner.Proofs.Polynomial.Exact

/-!
# Exact solutions

An equation between two signed sums with small coefficients is solved without any rounding before
the last division. The solution is of the kind that the whole coefficients of the difference call
for, the discriminant is exact, and every root that a fraction of whole numbers gives is the
nearest double to it (`Solution.IsCorrect`, `solve_signedSums`).
-/

namespace Reckoner

open Double Reckoner.Polynomial Equation SignedSum

/-- The discriminant of `a x² + b x + c`. -/
def exactDiscriminant (a b c : ℤ) : ℤ := b * b - 4 * a * c

/-- The solution that `a x² + b x + c = 0` calls for, each root that is a fraction rounded to the
nearest double. The cases exclude each other, so the coefficients determine the kind. -/
def Solution.IsCorrect (a b c : ℤ) : Solution → Prop
  | .everything => a = 0 ∧ b = 0 ∧ c = 0
  | .nothing => a = 0 ∧ b = 0 ∧ c ≠ 0
  | .single x => a = 0 ∧ b ≠ 0 ∧ IsNearest x (-c / b)
  | .double x => a ≠ 0 ∧ exactDiscriminant a b c = 0 ∧ IsNearest x (-b / (2 * a))
  | .reals x₁ x₂ => a ≠ 0 ∧ 0 < exactDiscriminant a b c ∧
      ∀ k : ℕ, (k * k : ℕ) = exactDiscriminant a b c →
        IsNearest x₁ ((-b + k) / (2 * a)) ∧ IsNearest x₂ ((-b - k) / (2 * a))
  | .complex re im => a ≠ 0 ∧ exactDiscriminant a b c < 0 ∧ IsNearest re (-b / (2 * a)) ∧
      ∀ k : ℕ, (k * k : ℕ) = -exactDiscriminant a b c → IsNearest im (k / (2 * a))

/-! ## Linear equations -/

theorem isNegligible_iff {x : Float} {n : ℤ} (h : IsExact x n) : isNegligible x = true ↔ n = 0 := by
  rw [isNegligible, decide_eq_true_iff, abs_lt_tolerance_iff h]

theorem isCorrect_solveLinear {x y : Float} {b c : ℤ} (hx : IsExact x b) (hy : IsExact y c)
    (hb : |b| < 2 ^ 53) (hc : |c| < 2 ^ 53) : (solveLinear x y).1.IsCorrect 0 b c := by
  unfold solveLinear
  by_cases hb0 : b = 0
  · rw [if_pos ((isNegligible_iff hx).2 hb0)]
    by_cases hc0 : c = 0
    · rw [if_pos ((isNegligible_iff hy).2 hc0)]
      exact ⟨rfl, hb0, hc0⟩
    · rw [if_neg (mt (isNegligible_iff hy).1 hc0)]
      exact ⟨rfl, hb0, hc0⟩
  · rw [if_neg (mt (isNegligible_iff hx).1 hb0)]
    have hneg : IsExact (-y) ((-c : ℤ) : ℚ) := by
      rw [Int.cast_neg]
      exact hy.neg
    have h := hneg.div hx hb0 (by rwa [abs_neg]) hb
    rw [Int.cast_neg] at h
    exact ⟨rfl, hb0, h⟩

/-! ## Quadratic equations -/

section Quadratic

variable {x y z : Float} {a b c : ℤ}

/-- The discriminant of small coefficients is small. -/
theorem abs_products_lt (ha : |a| ≤ 2 ^ 25) (hb : |b| ≤ 2 ^ 25) (hc : |c| ≤ 2 ^ 25) :
    |b * b| ≤ 2 ^ 50 ∧ |4 * a| ≤ 2 ^ 27 ∧ |4 * a * c| ≤ 2 ^ 52 := by
  have hb' : |b * b| ≤ 2 ^ 25 * 2 ^ 25 := by
    rw [abs_mul]
    exact mul_le_mul hb hb (abs_nonneg _) (by positivity)
  have ha' : |4 * a| ≤ 2 ^ 27 := by
    rw [abs_mul, show |(4 : ℤ)| = 4 from rfl]
    omega
  have hc' : |4 * a * c| ≤ 2 ^ 27 * 2 ^ 25 := by
    rw [abs_mul]
    exact mul_le_mul ha' hc (abs_nonneg _) (by positivity)
  exact ⟨hb'.trans (by norm_num), ha', hc'.trans (by norm_num)⟩

theorem abs_exactDiscriminant_lt (ha : |a| ≤ 2 ^ 25) (hb : |b| ≤ 2 ^ 25) (hc : |c| ≤ 2 ^ 25) :
    |exactDiscriminant a b c| < 2 ^ 53 := by
  obtain ⟨hb', -, hc'⟩ := abs_products_lt ha hb hc
  have := abs_sub (b * b) (4 * a * c)
  unfold exactDiscriminant
  omega

/-- **The discriminant is exact.** -/
theorem isExact_discriminant (hx : IsExact x a) (hy : IsExact y b) (hz : IsExact z c)
    (ha : |a| ≤ 2 ^ 25) (hb : |b| ≤ 2 ^ 25) (hc : |c| ≤ 2 ^ 25) :
    IsExact (discriminant x y z) (exactDiscriminant a b c) := by
  obtain ⟨hb', ha', hc'⟩ := abs_products_lt ha hb hc
  have four : IsExact 4 (4 : ℤ) := isExact_literal 4 (by decide)
  have square := hy.mul hy (by omega)
  have product := (four.mul hx (by omega)).mul hz (by omega)
  exact square.sub product (abs_exactDiscriminant_lt ha hb hc).le

/-- A root is the nearest double to its fraction. -/
theorem isNearest_root {u : Float} {n : ℤ} (hu : IsExact u n) (hx : IsExact x a) (ha0 : a ≠ 0)
    (ha : |a| ≤ 2 ^ 25) (hn : |n| < 2 ^ 53) : IsNearest (u / (2 * x)) (n / (2 * a)) := by
  have two : IsExact 2 (2 : ℤ) := isExact_literal 2 (by decide)
  have htwice : |2 * a| < 2 ^ 53 := by
    rw [abs_mul, show |(2 : ℤ)| = 2 from rfl]
    omega
  have h := hu.div (two.mul hx htwice.le) (by omega) hn htwice
  push_cast at h
  exact h

/-- The square root of a small square is exact and much smaller. -/
theorem isExact_sqrt {u : Float} {n : ℤ} {k : ℕ} (hu : IsExact u n) (hk : (k * k : ℕ) = n)
    (hn : |n| < 2 ^ 53) : IsExact u.sqrt (k : ℤ) ∧ k < 2 ^ 27 := by
  have hsquare : k * k < 2 ^ 53 := by
    rw [← hk, abs_of_nonneg (by positivity)] at hn
    exact_mod_cast hn
  exact ⟨IsExact.sqrt (by rwa [hk]) hsquare,
    lt_of_mul_self_lt_mul_self₀ (by positivity) (by omega)⟩

/-- **The quadratic formula is exact up to the last division.** -/
theorem isCorrect_solveQuadratic (hx : IsExact x a) (hy : IsExact y b) (hz : IsExact z c)
    (ha0 : a ≠ 0) (ha : |a| ≤ 2 ^ 25) (hb : |b| ≤ 2 ^ 25) (hc : |c| ≤ 2 ^ 25) :
    (solveQuadratic x y z).1.IsCorrect a b c := by
  have delta := isExact_discriminant hx hy hz ha hb hc
  have small := abs_exactDiscriminant_lt ha hb hc
  have neg : IsExact (-y) ((-b : ℤ) : ℚ) := by
    rw [Int.cast_neg]
    exact hy.neg
  have hnegb : |-b| ≤ 2 ^ 25 := by rwa [abs_neg]
  change (roots x y (discriminant x y z)).1.IsCorrect a b c
  dsimp only [roots]
  have middle := isNearest_root neg hx ha0 ha (by omega)
  rw [Int.cast_neg] at middle
  by_cases hzero : exactDiscriminant a b c = 0
  · rw [if_pos ((isNegligible_iff delta).2 hzero)]
    exact ⟨ha0, hzero, middle⟩
  rw [if_neg (mt (isNegligible_iff delta).1 hzero)]
  have zero : IsExact 0 (0 : ℤ) := isExact_literal 0 (by decide)
  have positive : 0 < discriminant x y z ↔ 0 < exactDiscriminant a b c := by
    rw [lt_iff zero.isFinite delta.isFinite, zero.value_eq, delta.value_eq]
    exact Int.cast_lt
  by_cases hpos : 0 < exactDiscriminant a b c
  · rw [if_pos (positive.2 hpos)]
    refine ⟨ha0, hpos, fun k hk => ?_⟩
    obtain ⟨sqrt, hk'⟩ := isExact_sqrt (delta : IsExact _ (exactDiscriminant a b c)) hk small
    have hnegb' := abs_le.1 hnegb
    have hplus : |-b + k| < 2 ^ 53 := abs_lt.2 ⟨by omega, by omega⟩
    have hminus : |-b - k| < 2 ^ 53 := abs_lt.2 ⟨by omega, by omega⟩
    have plus := isNearest_root (neg.add sqrt hplus.le) hx ha0 ha hplus
    have minus := isNearest_root (neg.sub sqrt hminus.le) hx ha0 ha hminus
    push_cast at plus minus
    exact ⟨plus, minus⟩
  · rw [if_neg (mt positive.1 hpos)]
    refine ⟨ha0, by omega, middle, fun k hk => ?_⟩
    have opposite : IsExact (-discriminant x y z) ((-exactDiscriminant a b c : ℤ) : ℚ) := by
      rw [Int.cast_neg]
      exact delta.neg
    obtain ⟨sqrt, hk'⟩ := isExact_sqrt opposite hk (by rwa [abs_neg])
    have root := isNearest_root sqrt hx ha0 ha (by rw [abs_of_nonneg (by omega)]; omega)
    exact_mod_cast root

end Quadratic

/-! ## Sides -/

/-- Blanks do not hide the equal sign between two sums. -/
theorem exists_sides? {text : List Char} {g d : SignedSum}
    (h : text.filter (!Unicode.isBlank ·) = g.text ++ '=' :: d.text) :
    ∃ left right, sides? text = some (left, right) ∧
      left.filter (!Unicode.isBlank ·) = g.text ∧ right.filter (!Unicode.isBlank ·) = d.text := by
  have no_equal (s : SignedSum) : '=' ∉ s.text := s.not_mem_text (by decide) (by decide)
  have visible : (!Unicode.isBlank '=') = true := by decide +kernel
  have hmem : '=' ∈ text := by
    have : '=' ∈ text.filter (!Unicode.isBlank ·) := by simp [h]
    exact (List.mem_filter.1 this).1
  obtain ⟨left, right, rfl, hleft⟩ := List.eq_append_cons_of_mem hmem
  rw [List.filter_append, List.filter_cons, if_pos visible] at h
  obtain ⟨hg, -, hd⟩ := (List.append_cons_inj_of_notMem (no_equal g) (no_equal d)).1 h.symm
  refine ⟨left, right, sides?_eq_some_iff.2 ⟨rfl, hleft, fun hm => ?_⟩, hg.symm, hd.symm⟩
  exact no_equal d (hd ▸ List.mem_filter.2 ⟨hm, visible⟩)

/-! ## Equations -/

/-- The coefficient of a power in the difference of two sums. -/
def SignedSum.difference (g d : SignedSum) (k : ℕ) : ℤ := g.coeff k - d.coeff k

theorem SignedSum.abs_difference_le (g d : SignedSum) (k : ℕ) :
    |difference g d k| ≤ (g.weight + d.weight : ℕ) := by
  have hg : |g.coeff k| ≤ g.weight := abs_coeffOf_le g.terms k
  have hd : |d.coeff k| ≤ d.weight := abs_coeffOf_le d.terms k
  have := abs_sub (g.coeff k) (d.coeff k)
  unfold difference
  omega

/-- No power above six is left. -/
theorem SignedSum.power_lt_of_difference_ne_zero {g d : SignedSum} {k : ℕ}
    (h : difference g d k ≠ 0) : k < maxPower + 1 := by
  by_contra hk
  have absent (s : SignedSum) : s.coeff k = 0 := coeffOf_eq_zero fun t _ hpower =>
    hk (hpower ▸ t.2.power_le)
  exact h (by rw [difference, absent, absent, sub_zero])

/-- Solving starts from the exact difference of the two sums. -/
theorem exists_solve_eq {text : List Char} {g d : SignedSum}
    (htext : text.filter (!Unicode.isBlank ·) = g.text ++ '=' :: d.text)
    (unknown : ∃ t ∈ g.terms ++ d.terms, t.2.power ≠ 0)
    (small : g.weight + d.weight < 2 ^ 53) :
    ∃ p stated, stated ≠ 0 ∧ Holds p (difference g d) ∧
      (∀ s, solvePolynomial p stated = .ok s →
        ∃ r, solve text = .ok r ∧ r.solution = s.1 ∧ r.discriminant = s.2.2) ∧
      ∀ e, solvePolynomial p stated = .error e → solve text = .error e := by
  obtain ⟨left, right, hsides, hleft, hright⟩ := exists_sides? htext
  obtain ⟨l, hl, tracks_l⟩ := exists_ofText? (s := g) (by omega) hleft
  obtain ⟨r, hr, tracks_r⟩ := exists_ofText? (s := d) (by omega) hright
  have hstated : max l.degree r.degree ≠ 0 := by
    obtain ⟨t, ht, hpower⟩ := unknown
    obtain ht | ht := List.mem_append.1 ht
    · have := tracks_l.power_le_degree ht
      omega
    · have := tracks_r.power_le_degree ht
      omega
  refine ⟨l.sub r, _, hstated, tracks_l.holds_sub tracks_r small, fun s hs => ?_,
    fun e he => solve_eq_error_of_sides hsides hl hr he⟩
  obtain ⟨x, hx, hsolution, hdiscriminant, -⟩ := solve_eq_ok_of_sides hsides hl hr hs
  exact ⟨x, hx, hsolution, hdiscriminant⟩

/-- **Solving is exact.** The texts on the two sides of the equation are signed sums, some term has
the unknown, and the coefficients together are at most `2 ^ 25`. If no power above two is left in
the difference of the sums, it is solved with exact coefficients; the discriminant is there exactly
if the power two is left. If a greater power is left, the greatest one is refused. -/
theorem solve_signedSums {text : List Char} {g d : SignedSum}
    (htext : text.filter (!Unicode.isBlank ·) = g.text ++ '=' :: d.text)
    (unknown : ∃ t ∈ g.terms ++ d.terms, t.2.power ≠ 0) (small : g.weight + d.weight ≤ 2 ^ 25) :
    ((∀ k, 3 ≤ k → difference g d k = 0) → ∃ r, solve text = .ok r ∧
      r.solution.IsCorrect (difference g d 2) (difference g d 1) (difference g d 0) ∧
      (difference g d 2 = 0 → r.discriminant = none) ∧
      (difference g d 2 ≠ 0 → ∃ δ, r.discriminant = some δ ∧
        IsExact δ
          (exactDiscriminant (difference g d 2) (difference g d 1) (difference g d 0)))) ∧
    ((∃ k, 3 ≤ k ∧ difference g d k ≠ 0) → ∃ n, 3 ≤ n ∧ difference g d n ≠ 0 ∧
      (∀ k, n < k → difference g d k = 0) ∧ solve text = .error (.unsolvable (.degree n))) := by
  obtain ⟨p, stated, hstated, holds, ok, error⟩ := exists_solve_eq htext unknown (by omega)
  have bound (k : ℕ) : |difference g d k| ≤ 2 ^ 25 :=
    (abs_difference_le g d k).trans (by exact_mod_cast small)
  have two := holds.isExact_coeff (k := 2) (by decide)
  have one := holds.isExact_coeff (k := 1) (by decide)
  have zero := holds.isExact_coeff (k := 0) (by decide)
  constructor
  · intro low
    by_cases htwo : difference g d 2 = 0
    · have hdegree : p.degree ≤ 1 := holds.degree_le fun k hk => by
        obtain rfl | hk : k = 2 ∨ 3 ≤ k := by omega
        · exact htwo
        · exact low k hk
      obtain ⟨r, hr, hsolution, hdiscriminant⟩ := ok _ (solvePolynomial_linear hdegree hstated)
      refine ⟨r, hr, ?_, fun _ => hdiscriminant, fun hne => absurd htwo hne⟩
      rw [hsolution, htwo]
      exact isCorrect_solveLinear one zero ((bound 1).trans_lt (by norm_num))
        ((bound 0).trans_lt (by norm_num))
    · have hdegree : p.degree = 2 :=
        Nat.le_antisymm (holds.degree_le fun k hk => low k hk)
          (holds.le_degree (by decide) htwo)
      obtain ⟨r, hr, hsolution, hdiscriminant⟩ := ok _ (solvePolynomial_quadratic hdegree)
      refine ⟨r, hr, ?_, fun hzero => absurd hzero htwo, fun _ => ⟨_, hdiscriminant, ?_⟩⟩
      · rw [hsolution]
        exact isCorrect_solveQuadratic two one zero htwo (bound 2) (bound 1) (bound 0)
      · exact isExact_discriminant two one zero (bound 2) (bound 1) (bound 0)
  · rintro ⟨k, hk, hne⟩
    have hpower : k < maxPower + 1 := power_lt_of_difference_ne_zero hne
    have hdegree : 3 ≤ p.degree := hk.trans (holds.le_degree hpower hne)
    refine ⟨p.degree, hdegree, (holds.degree_ne_zero (by omega)).1, fun j hj => ?_,
      error _ (solvePolynomial_of_three_le hdegree)⟩
    by_contra hj'
    have := holds.le_degree (power_lt_of_difference_ne_zero hj') hj'
    omega

/-- Two sums whose difference is `2 x² - 2 x - 4`. -/
theorem solve_signedSums_two_roots :
    ∃ r, solve "3*x^2 - 2x = x^2 + 4".toList = .ok r ∧ r.solution.IsCorrect 2 (-2) (-4) ∧
      ∃ δ, r.discriminant = some δ ∧ IsExact δ (36 : ℤ) := by
  have htext : "3*x^2 - 2x = x^2 + 4".toList.filter (!Unicode.isBlank ·) =
      SignedSum.text ⟨none, .unknown (some (⟨['3'], by decide, by decide⟩, true))
          (some ⟨⟨['2'], by decide, by decide⟩, by decide⟩),
        [(.minus, .unknown (some (⟨['2'], by decide, by decide⟩, false)) none)]⟩ ++ '=' ::
      SignedSum.text ⟨none, .unknown none (some ⟨⟨['2'], by decide, by decide⟩, by decide⟩),
        [(.plus, .constant ⟨['4'], by decide, by decide⟩)]⟩ := by decide +kernel
  have h := solve_signedSums htext ⟨_, List.mem_cons_self, by decide⟩ (by decide)
  obtain ⟨r, hr, hsolution, -, hdiscriminant⟩ := h.1 fun k hk => by
    by_contra hne
    have hpower : k < 7 := power_lt_of_difference_ne_zero hne
    interval_cases k <;> exact hne rfl
  exact ⟨r, hr, hsolution, hdiscriminant (by decide)⟩

end Reckoner
