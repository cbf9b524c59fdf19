import Reckoner.Proofs.Double.Rounding
import Reckoner.Proofs.Double.ZeroSign

/-!
# Arithmetic of doubles

Sums, differences, products and quotients of finite doubles are the nearest doubles to the exact
results, where these are zero or in the range of normal doubles (`isNearest_add`,
`isNearest_sub`, `isNearest_mul`, `isNearest_div`). In particular they are exact on whole numbers
up to `2 ^ 53` (`IsExact.add`, `IsExact.sub`, `IsExact.mul`), and so are the square roots of
squares (`IsExact.sqrt`).
-/

namespace Reckoner.Double

open Float.Model Float.Model.UnpackedFloat

/-! ## Sums and differences -/

theorem cast_apply (s : Sign) (n : ℤ) : ((s.apply n : ℤ) : ℚ) = s.apply 1 * n := by
  cases s <;> simp [Sign.apply]

theorem decreaseExponent_value (s : Sign) (m : ℕ) {e t : ℤ} (ht : t ≤ e) :
    (s.apply ((decreaseExponent m e t).1 : ℤ) : ℚ) * 2 ^ t = s.apply m * 2 ^ e := by
  have h := shiftLeft_value m (e - t).toNat e
  have exponent : e - ((e - t).toNat : ℤ) = t := by omega
  rw [exponent] at h
  rw [cast_apply, cast_apply s m, mul_assoc, mul_assoc]
  simp only [decreaseExponent, Int.cast_natCast, h]

/-- The exact sum of two numbers, in units of the smaller exponent. -/
def sumUnits (s : Sign) (m : ℕ) (e : ℤ) (t : Sign) (m' : ℕ) (e' : ℤ) : ℤ :=
  s.apply ((decreaseExponent m e (min e e')).1 : ℤ) +
    t.apply ((decreaseExponent m' e' (min e e')).1 : ℤ)

theorem add_finite (s t : Sign) (m m' : ℕ) (e e' : ℤ) (hm : 0 < m) (hm' : 0 < m') :
    UnpackedFloat.add .binary64 (.finite s m e hm) (.finite t m' e' hm') =
      normalize .binary64 (sumUnits s m e t m' e') (min e e') .positive := rfl

theorem partsValue_add (s t : Sign) (m m' : ℕ) (e e' : ℤ) (hm : 0 < m) (hm' : 0 < m') :
    partsValue (.finite s m e hm) + partsValue (.finite t m' e' hm') =
      sumUnits s m e t m' e' * 2 ^ min e e' := by
  rw [partsValue, partsValue, ← decreaseExponent_value s m (min_le_left e e'),
    ← decreaseExponent_value t m' (min_le_right e e'), sumUnits]
  push_cast
  ring

/-- **The sum of two doubles is the nearest one to the exact sum.** -/
theorem isNearest_add {x y : Float} (hx : x.isFinite = true) (hy : y.isFinite = true)
    (h : value x + value y = 0 ∨ InRange (value x + value y)) :
    IsNearest (x + y) (value x + value y) := by
  have cx := canonical_unpack x
  have cy := canonical_unpack y
  rw [isFinite_eq] at hx hy
  rw [add_eq]
  unfold value at h ⊢
  generalize unpack x = u at *
  generalize unpack y = v at *
  cases u with
  | notANumber | infinity _ => simp [UnpackedFloat.isFinite] at hx
  | zero s =>
    rw [partsValue_zero, zero_add]
    cases v with
    | notANumber | infinity _ => simp [UnpackedFloat.isFinite] at hy
    | zero t =>
      simp only [UnpackedFloat.add]
      split
      · exact (isExact_zero s).isNearest
      · exact (isExact_zero .positive).isNearest
    | finite t m e hm => exact (isExact_pack cy rfl).isNearest
  | finite s m e hm =>
    cases v with
    | notANumber | infinity _ => simp [UnpackedFloat.isFinite] at hy
    | zero t =>
      rw [partsValue_zero, add_zero]
      exact (isExact_pack cx rfl).isNearest
    | finite t m' e' hm' =>
      rw [partsValue_add] at h ⊢
      refine isNearest_normalize (h.imp_left fun hz => ?_) .positive
      have unit : (2 : ℚ) ^ min e e' ≠ 0 := by positivity
      exact_mod_cast (mul_eq_zero.1 hz).resolve_right unit

theorem isNearest_sub {x y : Float} (hx : x.isFinite = true) (hy : y.isFinite = true)
    (h : value x - value y = 0 ∨ InRange (value x - value y)) :
    IsNearest (x - y) (value x - value y) := by
  rw [sub_eq_add_neg, ← value_neg] at h ⊢
  rw [sub_eq_add]
  exact isNearest_add hx (by rw [isFinite_neg, hy]) h

/-! ## Products -/

theorem cast_apply_mul (s t : Sign) : (((s * t).apply 1 : ℤ) : ℚ) = s.apply 1 * t.apply 1 := by
  have h : (s * t).apply 1 = s.apply 1 * t.apply 1 := by cases s <;> cases t <;> rfl
  rw [h, Int.cast_mul]

theorem inRange_sign {s : Sign} {q : ℚ} : InRange (s.apply 1 * q) ↔ InRange q := by
  have h : |(s.apply 1 : ℚ)| = 1 := by cases s <;> simp [Sign.apply]
  rw [InRange, abs_mul, h, one_mul, InRange]

theorem log2_add_le_log2_mul {m n : ℕ} (hm : m ≠ 0) (hn : n ≠ 0) :
    m.log2 + n.log2 ≤ (m * n).log2 := by
  have hm' := (Nat.log2_eq_iff hm).1 rfl
  have hn' := (Nat.log2_eq_iff hn).1 rfl
  refine (Nat.le_log2 (Nat.mul_ne_zero hm hn)).2 ?_
  rw [pow_add]
  exact Nat.mul_le_mul hm'.1 hn'.1

theorem partsValue_mul (s t : Sign) (m m' : ℕ) (e e' : ℤ) (hm : 0 < m) (hm' : 0 < m') :
    partsValue (.finite s m e hm) * partsValue (.finite t m' e' hm') =
      ((s * t).apply 1 : ℤ) * (((m * m' : ℕ) : ℚ) * 2 ^ (e + e')) := by
  rw [partsValue, partsValue, cast_apply s, cast_apply t, cast_apply_mul, zpow_add₀ two_ne_zero]
  push_cast
  ring

/-- The product of two numbers is rounded to the nearest double, if it has enough digits. -/
theorem isNearest_mul_parts {s t : Sign} {m m' : ℕ} {e e' : ℤ} {hm : 0 < m} {hm' : 0 < m'}
    (hdigits : e + e' ≤ totalExponent (m * m') (e + e') - 53)
    (h : InRange (partsValue (.finite s m e hm) * partsValue (.finite t m' e' hm'))) :
    IsNearest (pack (.mul .binary64 (.finite s m e hm) (.finite t m' e' hm')))
      (partsValue (.finite s m e hm) * partsValue (.finite t m' e' hm')) := by
  rw [partsValue_mul] at h ⊢
  exact isNearest_sign (cuts_exact _) (Nat.mul_ne_zero hm.ne' hm'.ne') hdigits (inRange_sign.1 h)
    (s * t)

/-- The product of canonical numbers has all its digits, unless both are at the least exponent. -/
theorem digits_mul {s t : Sign} {m m' : ℕ} {e e' : ℤ} {hm : 0 < m} {hm' : 0 < m'}
    (c : Canonical (.finite s m e hm)) (c' : Canonical (.finite t m' e' hm')) :
    e + e' ≤ totalExponent (m * m') (e + e') - 53 ∨ e + e' = -2148 := by
  have hlog := log2_add_le_log2_mul hm.ne' hm'.ne'
  rw [totalExponent_eq rfl]
  obtain ⟨-, -, -, hnormal | rfl⟩ := c
  · have := (Nat.le_log2 hm.ne').2 hnormal
    omega
  · obtain ⟨-, -, -, hnormal' | rfl⟩ := c'
    · have := (Nat.le_log2 hm'.ne').2 hnormal'
      omega
    · exact .inr rfl

theorem abs_partsValue_mul {s t : Sign} {m m' : ℕ} {e e' : ℤ} {hm : 0 < m} {hm' : 0 < m'} :
    |partsValue (.finite s m e hm) * partsValue (.finite t m' e' hm')| =
      ((m * m' : ℕ) : ℚ) * 2 ^ (e + e') := by
  rw [abs_mul, abs_partsValue, abs_partsValue, zpow_add₀ two_ne_zero]
  push_cast
  ring

/-- **The product of two doubles is the nearest one to the exact product.** -/
theorem isNearest_mul {x y : Float} (hx : x.isFinite = true) (hy : y.isFinite = true)
    (h : value x * value y = 0 ∨ InRange (value x * value y)) :
    IsNearest (x * y) (value x * value y) := by
  have cx := canonical_unpack x
  have cy := canonical_unpack y
  rw [isFinite_eq] at hx hy
  rw [mul_eq]
  unfold value at h ⊢
  generalize unpack x = u at *
  generalize unpack y = v at *
  cases u with
  | notANumber | infinity _ => simp [UnpackedFloat.isFinite] at hx
  | zero s =>
    rw [partsValue_zero, zero_mul]
    cases v with
    | notANumber | infinity _ => simp [UnpackedFloat.isFinite] at hy
    | zero t | finite t _ _ _ => exact (isExact_zero (s * t)).isNearest
  | finite s m e hm =>
    cases v with
    | notANumber | infinity _ => simp [UnpackedFloat.isFinite] at hy
    | zero t =>
      rw [partsValue_zero, mul_zero]
      exact (isExact_zero (s * t)).isNearest
    | finite t m' e' hm' =>
      have hne : m * m' ≠ 0 := Nat.mul_ne_zero hm.ne' hm'.ne'
      have hrange : InRange (partsValue (.finite s m e hm) * partsValue (.finite t m' e' hm')) := by
        refine h.resolve_left fun hz => ?_
        have pos : (0 : ℚ) < ((m * m' : ℕ) : ℚ) * 2 ^ (e + e') := by positivity
        rw [← @abs_partsValue_mul s t m m' e e' hm hm', hz, abs_zero] at pos
        exact lt_irrefl _ pos
      have hlow : -1021 ≤ totalExponent (m * m') (e + e') := by
        refine InRange.le_totalExponent hne (le_refl _) (lt_add_one _) ?_
        rwa [InRange, ← @abs_partsValue_mul s t m m' e e' hm hm', abs_abs]
      refine isNearest_mul_parts ((digits_mul cx cy).resolve_right fun hsmall => ?_) hrange
      -- two numbers that small have no product in the range
      have hprod : m * m' < 2 ^ 53 * 2 ^ 53 := Nat.mul_lt_mul'' cx.1 cy.1
      have := (Nat.log2_lt (k := 106) hne).2 hprod
      rw [totalExponent_eq rfl] at hlow
      omega

/-! ## Quotients -/

theorem cast_apply_div (s t : Sign) : (((s / t).apply 1 : ℤ) : ℚ) = s.apply 1 / t.apply 1 := by
  cases s <;> cases t <;> simp [Sign.apply] <;> rfl

/-- The comparison of a fraction with one half gives the two bits. -/
theorem cuts_inexact (q : ℕ) {f : ℚ} (hpos : 0 < f) (hlt : f < 1) :
    Cuts (.ofMantissaAndAccuracy q (.inexact (compare f (1 / 2)))) (q + f) := by
  have le : (q : ℚ) ≤ q + f := by linarith
  have lt : (q : ℚ) + f < q + 1 := by linarith
  obtain h | h | h := lt_trichotomy f (1 / 2)
  · rw [compare_lt_iff_lt.2 h]
    refine ⟨le, lt, ?_, ?_⟩ <;> simp only [ExtendedMantissa.ofMantissaAndAccuracy]
    · exact iff_of_false (by simp) (by linarith)
    · exact iff_of_true trivial ⟨by linarith, by linarith⟩
  · rw [compare_eq_iff_eq.2 h]
    refine ⟨le, lt, ?_, ?_⟩ <;> simp only [ExtendedMantissa.ofMantissaAndAccuracy]
    · exact iff_of_true trivial (by linarith)
    · exact iff_of_false (by simp) (fun hne => hne.2 (by linarith))
  · rw [compare_gt_iff_gt.2 h]
    refine ⟨le, lt, ?_, ?_⟩ <;> simp only [ExtendedMantissa.ofMantissaAndAccuracy]
    · exact iff_of_true trivial (by linarith)
    · exact iff_of_true trivial ⟨by linarith, by linarith⟩

/-- The remainder of a division says where the exact quotient lies. -/
theorem cuts_fraction (q : ℕ) {r d : ℕ} (h : r < d) :
    Cuts (.ofMantissaAndAccuracy q (accuracyOfFraction r d)) (q + r / d) := by
  have hd : (0 : ℚ) < d := by exact_mod_cast (Nat.zero_le r).trans_lt h
  unfold accuracyOfFraction
  by_cases hr : r = 0
  · rw [if_pos hr, hr, Nat.cast_zero, zero_div, add_zero]
    exact cuts_exact q
  · have hlt : (r : ℚ) / d < 1 := by
      rw [div_lt_one hd]
      exact_mod_cast h
    have order : compare (2 * r) d = compare ((r : ℚ) / d) (1 / 2) := by
      obtain h | h | h := lt_trichotomy (2 * r) d
      · have hq : (r : ℚ) / d < 1 / 2 := by
          rw [div_lt_div_iff₀ hd two_pos]
          exact_mod_cast (by omega : r * 2 < 1 * d)
        rw [compare_lt_iff_lt.2 h, compare_lt_iff_lt.2 hq]
      · have hq : (r : ℚ) / d = 1 / 2 := by
          rw [div_eq_div_iff hd.ne' two_ne_zero]
          exact_mod_cast (by omega : r * 2 = 1 * d)
        rw [compare_eq_iff_eq.2 h, compare_eq_iff_eq.2 hq]
      · have hq : 1 / 2 < (r : ℚ) / d := by
          rw [div_lt_div_iff₀ two_pos hd]
          exact_mod_cast (by omega : 1 * d < r * 2)
        rw [compare_gt_iff_gt.2 h, compare_gt_iff_gt.2 hq]
    rw [if_neg hr, order]
    exact cuts_inexact q (by positivity) hlt

theorem finite_value_bounds {m : ℕ} (hm : m ≠ 0) (e : ℤ) :
    2 ^ (totalExponent m e - 1) ≤ (m : ℚ) * 2 ^ e ∧ (m : ℚ) * 2 ^ e < 2 ^ totalExponent m e :=
  totalExponent_bounds hm e (le_refl _) (lt_add_one _)

theorem cast_div_add_mod (a : ℕ) {d : ℕ} (hd : d ≠ 0) :
    (a : ℚ) / d = (a / d : ℕ) + ((a % d : ℕ) : ℚ) / d := by
  have hd : (d : ℚ) ≠ 0 := by exact_mod_cast hd
  have h : (d : ℚ) * (a / d : ℕ) + (a % d : ℕ) = a := by exact_mod_cast Nat.div_add_mod a d
  rw [← h]
  field_simp

/-- The exact quotient of two numbers by the digits that their division carries out. -/
theorem quotient_value {m m' : ℕ} {e e' t : ℤ} (hm' : m' ≠ 0) (ht : t ≤ e - e') :
    (m : ℚ) * 2 ^ e / (m' * 2 ^ e') = ((m <<< (e - e' - t).toNat : ℕ) : ℚ) / m' * 2 ^ t := by
  have hm' : (m' : ℚ) ≠ 0 := by exact_mod_cast hm'
  have h := shiftLeft_value m (e - e' - t).toNat (e - e')
  have exponent : e - e' - ((e - e' - t).toNat : ℤ) = t := by omega
  rw [exponent, zpow_sub₀ two_ne_zero] at h
  rw [div_mul_eq_mul_div, h]
  field_simp

/-- A division carries out all the digits of a double. -/
theorem two_pow_le_quotient {m m' : ℕ} {e e' t : ℤ} {x : ℚ} (hm : m ≠ 0) (hm' : m' ≠ 0)
    (hx : (m : ℚ) * 2 ^ e / (m' * 2 ^ e') = x * 2 ^ t)
    (ht : t ≤ totalExponent m e - totalExponent m' e' - 53) : 2 ^ 52 ≤ x := by
  have unit : (0 : ℚ) < 2 ^ t := by positivity
  have hlo := (finite_value_bounds hm e).1
  have hhi := (finite_value_bounds hm' e').2
  have hpos : (0 : ℚ) < m' * 2 ^ e' := by positivity
  have step : (2 : ℚ) ^ (totalExponent m e - 1 - totalExponent m' e') ≤
      m * 2 ^ e / (m' * 2 ^ e') := by
    rw [le_div_iff₀ hpos, zpow_sub₀ two_ne_zero, div_mul_eq_mul_div,
      div_le_iff₀ (by positivity)]
    exact mul_le_mul hlo hhi.le hpos.le (by positivity)
  have key : (2 : ℚ) ^ (52 + t) ≤ x * 2 ^ t :=
    hx ▸ (zpow_le_zpow_right₀ one_le_two (by omega)).trans step
  rw [zpow_add₀ two_ne_zero] at key
  exact_mod_cast le_of_mul_le_mul_right key unit

/-- A quotient is rounded from the digits that the division carries out: at least those of a double,
or all down to the least exponent. -/
theorem exists_div_parts (s t : Sign) (m m' : ℕ) (e e' : ℤ) (hm : 0 < m) (hm' : 0 < m') :
    ∃ (q : ℕ) (f : ℤ) (a : Accuracy) (x : ℚ),
      UnpackedFloat.div .binary64 (.finite s m e hm) (.finite t m' e' hm') =
          roundWithAccuracy .binary64 (s / t) q f a ∧
        Cuts (.ofMantissaAndAccuracy q a) x ∧ (2 ^ 52 ≤ q ∨ f ≤ -1074) ∧
        partsValue (.finite s m e hm) / partsValue (.finite t m' e' hm') =
          ((s / t).apply 1 : ℤ) * (x * 2 ^ f) := by
  set f := min (e - e') (Format.binary64.targetExponent
    (totalExponent m e - totalExponent m' e')) with hf
  set n := (e - e' - f).toNat with hn
  have hpos : (0 : ℚ) < m' := by exact_mod_cast hm'
  have hvalue := quotient_value (m := m) (e := e) hm'.ne' (min_le_left (e - e')
    (Format.binary64.targetExponent (totalExponent m e - totalExponent m' e')))
  rw [← hf, ← hn] at hvalue
  have cuts : Cuts (.ofMantissaAndAccuracy (m <<< n / m')
      (accuracyOfFraction (m <<< n % m') m')) (((m <<< n : ℕ) : ℚ) / m') := by
    rw [cast_div_add_mod _ hm'.ne']
    exact cuts_fraction _ (Nat.mod_lt _ hm')
  refine ⟨_, f, _, _, rfl, cuts, ?_, ?_⟩
  · have target := min_le_right (e - e') (Format.binary64.targetExponent
      (totalExponent m e - totalExponent m' e'))
    rw [← hf, targetExponent_eq, le_max_iff] at target
    refine target.imp_left fun target => ?_
    have hx := two_pow_le_quotient hm.ne' hm'.ne' hvalue target
    have hlt := cuts.lt
    rw [mantissa_ofMantissaAndAccuracy] at hlt
    exact Nat.lt_succ_iff.1 (by exact_mod_cast hx.trans_lt hlt)
  · rw [partsValue, partsValue, cast_apply s, cast_apply t, cast_apply_div, ← hvalue]
    push_cast
    rw [mul_assoc, mul_assoc, mul_div_mul_comm]

/-- The quotient of two numbers is rounded to the nearest double. -/
theorem isNearest_div_parts {s t : Sign} {m m' : ℕ} {e e' : ℤ} {hm : 0 < m} {hm' : 0 < m'}
    (h : InRange (partsValue (.finite s m e hm) / partsValue (.finite t m' e' hm'))) :
    IsNearest (pack (.div .binary64 (.finite s m e hm) (.finite t m' e' hm')))
      (partsValue (.finite s m e hm) / partsValue (.finite t m' e' hm')) := by
  obtain ⟨q, f, a, x, rounded, cuts, digits, hvalue⟩ := exists_div_parts s t m m' e e' hm hm'
  rw [hvalue] at h ⊢
  rw [rounded]
  have hrange : InRange (x * 2 ^ f) := inRange_sign.1 h
  have hle := cuts.le
  have hlt := cuts.lt
  rw [mantissa_ofMantissaAndAccuracy] at hle hlt
  have digits : 2 ^ 52 ≤ q := by
    refine digits.elim id fun hf => ?_
    -- at the least exponent the range of normal doubles starts with all their digits
    have hx : (0 : ℚ) ≤ x := (Nat.cast_nonneg q).trans hle
    have hlow := hrange.1
    rw [abs_of_nonneg (by positivity)] at hlow
    have unit : (2 : ℚ) ^ f ≤ 2 ^ (-1074 : ℤ) := zpow_le_zpow_right₀ one_le_two hf
    have split : (2 : ℚ) ^ (-1022 : ℤ) = 2 ^ 52 * 2 ^ (-1074 : ℤ) := by
      rw [← zpow_natCast, ← zpow_add₀ two_ne_zero]
      rfl
    rw [split] at hlow
    have hx52 : (2 : ℚ) ^ 52 ≤ x := le_of_mul_le_mul_right
      (hlow.trans (mul_le_mul_of_nonneg_left unit hx)) (by positivity)
    exact Nat.lt_succ_iff.1 (by exact_mod_cast hx52.trans_lt hlt)
  have hq : q ≠ 0 := by omega
  have hlog := (Nat.le_log2 hq).2 digits
  have exponent : f ≤ totalExponent q f - 53 := by
    rw [totalExponent_eq rfl]
    omega
  exact isNearest_sign cuts hq exponent hrange (s / t)

/-- **The quotient of two doubles is the nearest one to the exact quotient.** -/
theorem isNearest_div {x y : Float} (hx : x.isFinite = true) (hy : y.isFinite = true)
    (hne : value y ≠ 0) (h : value x / value y = 0 ∨ InRange (value x / value y)) :
    IsNearest (x / y) (value x / value y) := by
  rw [isFinite_eq] at hx hy
  rw [div_eq]
  unfold value at hne h ⊢
  generalize unpack x = u at *
  generalize unpack y = v at *
  cases v with
  | notANumber | infinity _ => simp [UnpackedFloat.isFinite] at hy
  | zero t => exact absurd rfl hne
  | finite t m' e' hm' =>
    cases u with
    | notANumber | infinity _ => simp [UnpackedFloat.isFinite] at hx
    | zero s =>
      rw [partsValue_zero, zero_div]
      exact (isExact_zero (s / t)).isNearest
    | finite s m e hm =>
      have pos : (0 : ℚ) < m * 2 ^ e := by positivity
      rw [← @abs_partsValue s m e hm] at pos
      exact isNearest_div_parts (h.resolve_left (div_ne_zero (abs_pos.1 pos) hne))

/-! ## Whole numbers -/

/-- Whole numbers up to `2 ^ 53` are zero or in the range of normal doubles. -/
theorem inRange_int {n : ℤ} (h : |n| ≤ 2 ^ 53) : (n : ℚ) = 0 ∨ InRange n := by
  by_cases hn : n = 0
  · exact .inl (by exact_mod_cast hn)
  · right
    have one : (1 : ℚ) ≤ |(n : ℚ)| := by exact_mod_cast Int.one_le_abs hn
    have le : |(n : ℚ)| ≤ 2 ^ 53 := by exact_mod_cast h
    have low : (2 : ℚ) ^ (-1022 : ℤ) ≤ 2 ^ (0 : ℤ) := zpow_le_zpow_right₀ one_le_two (by omega)
    have high : (2 : ℚ) ^ (53 : ℤ) < 2 ^ (1023 : ℤ) := zpow_lt_zpow_right₀ one_lt_two (by omega)
    rw [zpow_zero] at low
    exact inRange_of_lt (low.trans one) (le.trans_lt (by exact_mod_cast high))

/-- Every whole number below `2 ^ 53` of a unit is the value of a double. -/
theorem exists_isExact_units {n : ℤ} (h : |n| < 2 ^ 53) {t : ℤ} (hlow : -1022 ≤ t)
    (hhigh : t ≤ 971) : ∃ y, IsExact y (n * 2 ^ t) := by
  by_cases hn : n = 0
  · exact ⟨_, by simpa [hn] using isExact_zero .positive⟩
  · have hm : n.natAbs ≠ 0 := Int.natAbs_ne_zero.2 hn
    have hlt : n.natAbs < 2 ^ 53 := by
      rw [Int.abs_eq_natAbs] at h
      exact_mod_cast h
    have hlog : n.natAbs.log2 < 53 := (Nat.log2_lt hm).2 hlt
    obtain ⟨s, hs⟩ : ∃ s : Sign, (s.apply 1 : ℚ) * n.natAbs = n := by
      obtain h | h := Int.natAbs_eq n
      · exact ⟨.positive, by rw [h]; simp [Sign.apply]⟩
      · exact ⟨.negative, by rw [h]; simp [Sign.apply]⟩
    obtain ⟨k, hk⟩ : ∃ k, n.natAbs.log2 + k = 52 := ⟨52 - n.natAbs.log2, by omega⟩
    -- the digits, shifted to their full length
    have hshift : n.natAbs <<< k ≠ 0 := by
      rw [Nat.shiftLeft_eq]
      exact Nat.mul_ne_zero hm (Nat.two_pow_pos k).ne'
    have hdigits := (Nat.log2_eq_iff hshift).1 ((log2_shiftLeft hm k).trans hk)
    have canonical : Canonical (.finite s (n.natAbs <<< k) (t - k) (Nat.pos_of_ne_zero hshift)) :=
      ⟨hdigits.2, by omega, by omega, .inl hdigits.1⟩
    have h := isExact_pack canonical rfl
    rw [partsValue, cast_apply, mul_assoc, Int.cast_natCast, shiftLeft_value, ← mul_assoc, hs] at h
    exact ⟨_, h⟩

/-- Every whole number up to `2 ^ 53` of a unit is the value of a double. -/
theorem exists_isExact_units_of_le {n : ℤ} (h : |n| ≤ 2 ^ 53) {t : ℤ} (hlow : -1022 ≤ t)
    (hhigh : t ≤ 970) : ∃ y, IsExact y (n * 2 ^ t) := by
  obtain hlt | heq := h.lt_or_eq
  · exact exists_isExact_units hlt hlow (by omega)
  · -- the greatest one is a power of two
    obtain ⟨k, hk, rfl⟩ : ∃ k : ℤ, |k| = 2 ^ 52 ∧ n = k * 2 := by
      obtain h | h := abs_eq_abs.1 (heq.trans (abs_of_pos (by decide)).symm)
      · exact ⟨2 ^ 52, rfl, h⟩
      · exact ⟨-2 ^ 52, rfl, h⟩
    obtain ⟨y, hy⟩ := exists_isExact_units (n := k) (t := t + 1) (by omega) (by omega) (by omega)
    refine ⟨y, ?_⟩
    rwa [zpow_add_one₀ two_ne_zero, mul_comm ((2 : ℚ) ^ t), ← mul_assoc, ← Int.cast_ofNat (R := ℚ),
      ← Int.cast_mul] at hy

/-- Every whole number up to `2 ^ 53` is the value of a double. -/
theorem exists_isExact_int {n : ℤ} (h : |n| ≤ 2 ^ 53) : ∃ y, IsExact y n := by
  obtain ⟨y, hy⟩ := exists_isExact_units_of_le h (t := 0) (by omega) (by omega)
  rw [zpow_zero, mul_one] at hy
  exact ⟨y, hy⟩

/-- What is nearest to a whole number up to `2 ^ 53` is exact. -/
theorem IsNearest.isExact_int {x : Float} {n : ℤ} (hx : IsNearest x n) (h : |n| ≤ 2 ^ 53) :
    IsExact x n := by
  obtain ⟨y, hy⟩ := exists_isExact_int h
  exact hx.isExact hy

theorem IsExact.add {x y : Float} {a b : ℤ} (hx : IsExact x a) (hy : IsExact y b)
    (h : |a + b| ≤ 2 ^ 53) : IsExact (x + y) (a + b : ℤ) := by
  have range := inRange_int h
  push_cast at range
  rw [← hx.value_eq, ← hy.value_eq] at range
  have hsum := isNearest_add hx.isFinite hy.isFinite range
  rw [hx.value_eq, hy.value_eq, ← Int.cast_add] at hsum
  exact hsum.isExact_int h

theorem IsExact.sub {x y : Float} {a b : ℤ} (hx : IsExact x a) (hy : IsExact y b)
    (h : |a - b| ≤ 2 ^ 53) : IsExact (x - y) (a - b : ℤ) := by
  have range := inRange_int h
  push_cast at range
  rw [← hx.value_eq, ← hy.value_eq] at range
  have hdiff := isNearest_sub hx.isFinite hy.isFinite range
  rw [hx.value_eq, hy.value_eq, ← Int.cast_sub] at hdiff
  exact hdiff.isExact_int h

theorem IsExact.mul {x y : Float} {a b : ℤ} (hx : IsExact x a) (hy : IsExact y b)
    (h : |a * b| ≤ 2 ^ 53) : IsExact (x * y) (a * b : ℤ) := by
  have range := inRange_int h
  push_cast at range
  rw [← hx.value_eq, ← hy.value_eq] at range
  have hprod := isNearest_mul hx.isFinite hy.isFinite range
  rw [hx.value_eq, hy.value_eq, ← Int.cast_mul] at hprod
  exact hprod.isExact_int h

theorem isExact_toFloat {n : ℕ} (h : n < 2 ^ 53) : IsExact n.toUInt64.toFloat (n : ℤ) := by
  have toNat : n.toUInt64.toNat = n := Nat.mod_eq_of_lt (by omega)
  have toFloat : n.toUInt64.toFloat = pack (normalize .binary64 n 0 .positive) := by
    change pack (normalize .binary64 n.toUInt64.toNat 0 .positive) = _
    rw [toNat]
  have habs : |(n : ℤ)| ≤ 2 ^ 53 := by
    rw [abs_of_nonneg (by omega)]
    exact_mod_cast h.le
  have range := inRange_int habs
  have near := isNearest_normalize (n := n) (e := 0) (by simpa using range) .positive
  rw [zpow_zero, mul_one] at near
  rw [toFloat]
  exact near.isExact_int habs

theorem isExact_ofScientific {n : ℕ} (h : n < 2 ^ 53) :
    IsExact (Float.ofScientific n false 0) (n : ℤ) := by
  have ten : Float.ofBits 0x3FF0000000000000 = (1 : ℕ).toUInt64.toFloat := by decide +kernel
  have scientific : Float.ofScientific n false 0 =
      n.toUInt64.toFloat * (1 : ℕ).toUInt64.toFloat := by
    rw [← ten]
    exact dif_pos ⟨h, by decide⟩
  have hn : |(n : ℤ) * (1 : ℕ)| ≤ 2 ^ 53 := by
    rw [abs_of_nonneg (by omega)]
    exact_mod_cast (by omega : n * 1 ≤ 2 ^ 53)
  rw [scientific]
  simpa using (isExact_toFloat h).mul (isExact_toFloat (n := 1) (by decide)) hn

theorem isExact_literal (n : ℕ) (h : n < 2 ^ 53) : IsExact (OfNat.ofNat n) (n : ℤ) :=
  isExact_ofScientific h

/-- The quotient of whole numbers is the nearest double to the exact one. -/
theorem IsExact.div {x y : Float} {a b : ℤ} (hx : IsExact x a) (hy : IsExact y b) (hb : b ≠ 0)
    (ha : |a| < 2 ^ 53) (hb' : |b| < 2 ^ 53) : IsNearest (x / y) (a / b) := by
  have hne : value y ≠ 0 := by
    rw [hy.value_eq]
    exact_mod_cast hb
  have range : (a / b : ℚ) = 0 ∨ InRange (a / b) := by
    by_cases ha0 : a = 0
    · left
      rw [ha0, Int.cast_zero, zero_div]
    · right
      have ha₁ : (1 : ℚ) ≤ |(a : ℚ)| := by exact_mod_cast Int.one_le_abs ha0
      have hb₁ : (1 : ℚ) ≤ |(b : ℚ)| := by exact_mod_cast Int.one_le_abs hb
      have ha₂ : |(a : ℚ)| < 2 ^ (53 : ℤ) := by exact_mod_cast ha
      have hb₂ : |(b : ℚ)| < 2 ^ (53 : ℤ) := by exact_mod_cast hb'
      have hpos : (0 : ℚ) < |(b : ℚ)| := by linarith
      refine inRange_of_lt ?_ ?_
      · rw [abs_div, le_div_iff₀ hpos]
        calc (2 : ℚ) ^ (-1022 : ℤ) * |(b : ℚ)| ≤ 2 ^ (-1022 : ℤ) * 2 ^ (53 : ℤ) :=
              mul_le_mul_of_nonneg_left hb₂.le (by positivity)
          _ = 2 ^ (-969 : ℤ) := by rw [← zpow_add₀ two_ne_zero]; rfl
          _ ≤ 2 ^ (0 : ℤ) := zpow_le_zpow_right₀ one_le_two (by omega)
          _ ≤ |(a : ℚ)| := by rwa [zpow_zero]
      · rw [abs_div, div_lt_iff₀ hpos]
        calc |(a : ℚ)| < 2 ^ (53 : ℤ) := ha₂
          _ ≤ 2 ^ (1023 : ℤ) := zpow_le_zpow_right₀ one_le_two (by omega)
          _ ≤ 2 ^ (1023 : ℤ) * |(b : ℚ)| := le_mul_of_one_le_right (by positivity) hb₁
  rw [← hx.value_eq, ← hy.value_eq] at range ⊢
  exact isNearest_div hx.isFinite hy.isFinite hne range

/-! ## Square roots -/

theorem sqrt_eq (x : Float) : x.sqrt = pack (UnpackedFloat.sqrt .binary64 (unpack x)) := rfl

/-- The root of a square comes out without a remainder. -/
theorem sqrtCore_square {m k : ℕ} {e : ℤ} (hm : m ≠ 0) (he : e ≤ 0)
    (h : (m : ℚ) * 2 ^ e = (k * k : ℕ)) :
    ∃ j : ℕ, sqrtCore .binary64 m e = (k * 2 ^ j, -(j : ℤ), .exact) ∧ 52 ≤ k.log2 + j := by
  have hk : k ≠ 0 := by
    rintro rfl
    have : (0 : ℚ) < m * 2 ^ e := by positivity
    simp [h] at this
  set t := min (e / 2) (Format.binary64.targetExponent ((totalExponent m e + 1) / 2)) with ht
  obtain ⟨j, hj⟩ : ∃ j : ℕ, t = -j := ⟨(-t).toNat, by omega⟩
  -- the digits, shifted so that their exponent is even, are those of a square
  have digits : m <<< (e - 2 * t).toNat = k * 2 ^ j * (k * 2 ^ j) := by
    have hvalue := shiftLeft_value m (e - 2 * t).toNat e
    have exponent : e - ((e - 2 * t).toNat : ℤ) = -(j + j) := by omega
    rw [exponent, h, zpow_neg, zpow_add₀ two_ne_zero, zpow_natCast] at hvalue
    have hpow : (2 : ℚ) ^ j * 2 ^ j ≠ 0 := by positivity
    have hdigits : ((m <<< (e - 2 * t).toNat : ℕ) : ℚ) = (k * k : ℕ) * (2 ^ j * 2 ^ j) := by
      rw [← hvalue, inv_mul_cancel_right₀ hpow]
    have hnat : m <<< (e - 2 * t).toNat = k * k * (2 ^ j * 2 ^ j) := by exact_mod_cast hdigits
    rw [hnat]
    ring
  refine ⟨j, ?_, ?_⟩
  · simp only [sqrtCore]
    rw [show e.ediv 2 = e / 2 from rfl,
      show (totalExponent m e + 1).ediv 2 = (totalExponent m e + 1) / 2 from rfl, ← ht, digits,
      Nat.sqrt_eq, Nat.sub_self, if_pos rfl, hj]
  · have hlo := (finite_value_bounds hm e).1
    have hhi : ((k * k : ℕ) : ℚ) < 2 ^ ((2 * k.log2 + 2 : ℕ) : ℤ) := by
      have := ((Nat.log2_eq_iff hk).1 rfl).2
      have square : k * k < 2 ^ (k.log2 + 1) * 2 ^ (k.log2 + 1) := Nat.mul_self_lt_mul_self this
      rw [← pow_add, show k.log2 + 1 + (k.log2 + 1) = 2 * k.log2 + 2 by ring] at square
      rw [zpow_natCast]
      exact_mod_cast square
    rw [h] at hlo
    have hexp := (zpow_lt_zpow_iff_right₀ one_lt_two).1 (hlo.trans_lt hhi)
    have htarget : t ≤ Format.binary64.targetExponent ((totalExponent m e + 1) / 2) :=
      min_le_right _ _
    rw [targetExponent_eq] at htarget
    push_cast at hexp
    omega

/-- A double below `2 ^ 53` has no digits to spare before the point. -/
theorem Canonical.exponent_nonpos {s : Sign} {m : ℕ} {e : ℤ} {hm : 0 < m}
    (c : Canonical (.finite s m e hm)) (h : (m : ℚ) * 2 ^ e < 2 ^ (53 : ℤ)) : e ≤ 0 := by
  obtain ⟨-, -, -, hnormal | rfl⟩ := c
  · have hexp := (zpow_lt_zpow_iff_right₀ one_lt_two).1
      ((finite_value_bounds hm.ne' e).1.trans_lt h)
    have hlog := (Nat.le_log2 hm.ne').2 hnormal
    rw [totalExponent_eq rfl] at hexp
    omega
  · decide

/-- A whole number with zeros behind the point is rounded to itself. -/
theorem isExact_roundWithAccuracy {k j : ℕ} (hk0 : k ≠ 0) (hk : k < 2 ^ 53)
    (hj : 52 ≤ k.log2 + j) :
    IsExact (pack (roundWithAccuracy .binary64 .positive (k * 2 ^ j) (-j) .exact)) (k : ℤ) := by
  have hvalue : ((k * 2 ^ j : ℕ) : ℚ) * 2 ^ (-(j : ℤ)) = k := by
    rw [zpow_neg, zpow_natCast]
    push_cast
    field_simp
  have habs : |(k : ℤ)| ≤ 2 ^ 53 := by
    rw [abs_of_nonneg (by omega)]
    exact_mod_cast hk.le
  have range : InRange (((k * 2 ^ j : ℕ) : ℚ) * 2 ^ (-(j : ℤ))) := by
    rw [hvalue]
    exact (inRange_int habs).resolve_left (by exact_mod_cast hk0)
  have hdigits : k * 2 ^ j ≠ 0 := Nat.mul_ne_zero hk0 (Nat.two_pow_pos j).ne'
  have exponent : -(j : ℤ) ≤ totalExponent (k * 2 ^ j) (-j) - 53 := by
    rw [← Nat.shiftLeft_eq, totalExponent_eq (log2_shiftLeft hk0 j)]
    push_cast
    omega
  have near := isNearest_sign (cuts_exact _) hdigits exponent range .positive
  rw [hvalue] at near
  refine IsNearest.isExact_int ?_ habs
  simpa [Sign.apply] using near

/-- The root of a square is exact. -/
theorem IsExact.sqrt {x : Float} {k : ℕ} (hx : IsExact x ((k * k : ℕ) : ℤ))
    (hk : k * k < 2 ^ 53) : IsExact x.sqrt (k : ℤ) := by
  obtain ⟨hfin, hvalue⟩ := hx
  have cx := canonical_unpack x
  rw [isFinite_eq] at hfin
  rw [sqrt_eq]
  unfold value at hvalue
  generalize unpack x = u at *
  cases u with
  | notANumber | infinity _ => simp [UnpackedFloat.isFinite] at hfin
  | zero s =>
    have hzero : k = 0 := by
      rw [partsValue_zero, eq_comm] at hvalue
      have hk : k * k = 0 := by exact_mod_cast hvalue
      simpa using hk
    rw [hzero]
    exact_mod_cast isExact_zero s
  | finite s m e hm =>
    have pos : (0 : ℚ) < m * 2 ^ e := by positivity
    have hpos : s = .positive := by
      cases s with
      | positive => rfl
      | negative =>
        have square : (0 : ℚ) ≤ (k * k : ℕ) := Nat.cast_nonneg _
        rw [partsValue, cast_apply, Int.cast_natCast] at hvalue
        simp only [Sign.apply, Int.cast_neg, Int.cast_one, Int.cast_natCast] at hvalue
        linarith
    subst hpos
    have hvalue : (m : ℚ) * 2 ^ e = (k * k : ℕ) := by exact_mod_cast hvalue
    have he : e ≤ 0 := cx.exponent_nonpos (hvalue ▸ by exact_mod_cast hk)
    obtain ⟨j, hcore, hj⟩ := sqrtCore_square hm.ne' he hvalue
    have unfolded : UnpackedFloat.sqrt .binary64 (.finite .positive m e hm) =
        roundWithAccuracy .binary64 .positive (k * 2 ^ j) (-j) .exact := by
      simp only [UnpackedFloat.sqrt, hcore]
    have hk0 : k ≠ 0 := by
      rintro rfl
      simp [hvalue] at pos
    rw [unfolded]
    exact isExact_roundWithAccuracy hk0 ((Nat.le_mul_self k).trans_lt hk) hj

end Reckoner.Double
