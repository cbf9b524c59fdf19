import Reckoner.Proofs.Double.Arithmetic
import Reckoner.Proofs.Double.Comparison

/-!
# Overflow

An operation on finite doubles stays finite exactly if its exact result is below half a unit behind
the greatest double (`BelowOverflow`), subnormal results included. What is rounded does not pass a
power of two either (`IsRounded`), so bounds on the operands give bounds on the result. Both are read
off one description of the mantissa and the exponent that a number is rounded to (`Rounds`).
-/

namespace Reckoner.Double

open Float.Model Float.Model.UnpackedFloat

/-- A number is below half a unit behind the greatest double. -/
def BelowOverflow (q : ℚ) : Prop := |q| < 2 ^ (1024 : ℤ) - 2 ^ (970 : ℤ)

/-! ## The rounded mantissa -/

/-- The mantissa and the exponent that a number is rounded to where exponents have no upper bound.
Below the least mantissa of an exponent the doubles lie twice as close. -/
structure Rounds (q : ℚ) (k : ℕ) (e : ℤ) : Prop where
  lt : k < 2 ^ 53
  normal : e = -1074 ∨ -1074 < e ∧ 2 ^ 52 ≤ k
  near : |k * 2 ^ e - q| ≤ 2 ^ e / 2
  even : |k * 2 ^ e - q| = 2 ^ e / 2 → Even k
  below : -1074 < e → k = 2 ^ 52 → k * 2 ^ e - q ≤ 2 ^ e / 4

theorem abs_sub_mul_two_pow (r y : ℚ) (t : ℤ) :
    |r * 2 ^ t - y * 2 ^ t| = |r - y| * 2 ^ t := by
  have unit : (0 : ℚ) < 2 ^ t := by positivity
  rw [← sub_mul, abs_mul, abs_of_pos unit]

/-- A mantissa of at most 53 bits stays. -/
theorem Rounds.of_lt {r : ℕ} {t : ℤ} {y : ℚ} (hlt : r < 2 ^ 53) (ht : -1074 ≤ t)
    (lower : -1074 < t → 2 ^ 52 ≤ y) (half : |r - y| ≤ 1 / 2) (even : |r - y| = 1 / 2 → Even r) :
    Rounds (y * 2 ^ t) r t := by
  have unit : (0 : ℚ) < 2 ^ t := by positivity
  refine ⟨hlt, ?_, ?_, fun h => ?_, fun h hk => ?_⟩
  · refine (lt_or_eq_of_le ht).symm.imp Eq.symm fun h => ⟨h, ?_⟩
    have : (2 : ℚ) ^ 52 < r + 1 := by linarith [lower h, (abs_le.1 half).1]
    exact Nat.lt_succ_iff.1 (by exact_mod_cast this)
  · rw [abs_sub_mul_two_pow]
    linarith [mul_le_mul_of_nonneg_right half unit.le]
  · rw [abs_sub_mul_two_pow] at h
    refine even (mul_right_cancel₀ unit.ne' (h.trans ?_))
    ring
  · have : (r : ℚ) ≤ y := by
      rw [hk]
      exact_mod_cast lower h
    linarith [mul_le_mul_of_nonneg_right this unit.le]

/-- What is rounded up to a power of two has the least mantissa of the next exponent. -/
theorem Rounds.of_two_pow {t : ℤ} {y : ℚ} (ht : -1074 ≤ t)
    (half : |((2 ^ 53 : ℕ) : ℚ) - y| ≤ 1 / 2) : Rounds (y * 2 ^ t) (2 ^ 52) (t + 1) := by
  have unit : (0 : ℚ) < 2 ^ t := by positivity
  have double : ((2 ^ 52 : ℕ) : ℚ) * 2 ^ (t + 1) = (2 ^ 53 : ℕ) * 2 ^ t := by
    rw [zpow_add_one₀ two_ne_zero]
    push_cast
    ring
  have twice : (2 : ℚ) ^ (t + 1) = 2 * 2 ^ t := by
    rw [zpow_add_one₀ two_ne_zero, mul_comm]
  have close := mul_le_mul_of_nonneg_right half unit.le
  rw [← abs_sub_mul_two_pow] at close
  refine ⟨by decide, .inr ⟨by omega, le_refl _⟩, ?_, fun _ => by decide, fun _ _ => ?_⟩
  · rw [double, twice]
    linarith
  · rw [double, twice]
    exact (le_abs_self _).trans (close.trans_eq (by ring))

/-- **What the model of rounding gives**: a mantissa and an exponent that the number rounds to. -/
theorem exists_rounds {m : ℕ} {e : ℤ} {a : Accuracy} {x : ℚ}
    (cuts : Cuts (.ofMantissaAndAccuracy m a) x)
    (he : e ≤ max (totalExponent m e - 53) (-1074)) :
    ∃ (k : ℕ) (f : ℤ), Rounds (x * 2 ^ e) k f ∧ ∀ s, roundWithAccuracy .binary64 s m e a =
      if h : k = 0 then .zero s else .finite s k f (Nat.pos_of_ne_zero h) := by
  obtain ⟨em, t, y, first, cuts, units, ht, upper, lower⟩ := exists_units cuts he
  have lower (h : -1074 < t) : 2 ^ 52 ≤ y := lower (by omega)
  have ht : -1074 ≤ t := by omega
  obtain ⟨half, even⟩ := cuts.abs_roundedMantissa_sub_le
  obtain ⟨r, hr⟩ : ∃ r, r = em.roundedMantissa := ⟨_, rfl⟩
  rw [← hr] at half even
  have r_le : r ≤ 2 ^ 53 := by
    have : (r : ℚ) < 2 ^ 53 + 1 := by linarith [(abs_le.1 half).2]
    exact Nat.lt_succ_iff.1 (by exact_mod_cast this)
  rw [units]
  obtain hlt | rfl := Nat.lt_or_eq_of_le r_le
  · refine ⟨r, t, .of_lt hlt ht lower half even, fun s => ?_⟩
    have second := shiftToTargetExponent_of_lt hlt ht
    simp only [roundWithAccuracy, first, ← hr, second]
    rfl
  · refine ⟨2 ^ 52, t + 1, .of_two_pow ht half, fun s => ?_⟩
    have second := shiftToTargetExponent_two_pow ht
    simp only [roundWithAccuracy, first, ← hr, second]
    rfl

theorem limit_eq : (2 : ℚ) ^ (1024 : ℤ) - 2 ^ (970 : ℤ) = (2 ^ 53 - 1 / 2) * 2 ^ (971 : ℤ) := by
  have greater : (2 : ℚ) ^ (1024 : ℤ) = 2 ^ 53 * 2 ^ (971 : ℤ) := by
    rw [← zpow_natCast, ← zpow_add₀ two_ne_zero]
    rfl
  have smaller : (2 : ℚ) ^ (971 : ℤ) = 2 * 2 ^ (970 : ℤ) := by
    rw [← zpow_one_add₀ two_ne_zero]
    rfl
  rw [greater, sub_mul, smaller]
  ring

/-- A number is less than half a unit behind the greatest mantissa of its exponent. -/
theorem Rounds.lt_greatest {q : ℚ} {k : ℕ} {e : ℤ} (h : Rounds q k e) :
    q < (2 ^ 53 - 1 / 2) * 2 ^ e := by
  have unit : (0 : ℚ) < 2 ^ e := by positivity
  have near := abs_le.1 h.near
  obtain hk | hk : k ≤ 2 ^ 53 - 2 ∨ k = 2 ^ 53 - 1 := by
    have := h.lt
    omega
  · have hk : (k : ℚ) ≤ 2 ^ 53 - 2 := by
      have : ((k + 2 : ℕ) : ℚ) ≤ (2 ^ 53 : ℕ) := by exact_mod_cast (by omega)
      push_cast at this
      linarith
    linarith [mul_le_mul_of_nonneg_right hk unit.le]
  · -- the greatest mantissa is odd, so a tie is not rounded to it
    have strict : |(k : ℚ) * 2 ^ e - q| < 2 ^ e / 2 := lt_of_le_of_ne h.near fun heq => by
      have := h.even heq
      rw [hk] at this
      exact absurd this (by decide)
    have hk : (k : ℚ) = 2 ^ 53 - 1 := by
      have : ((k + 1 : ℕ) : ℚ) = (2 ^ 53 : ℕ) := by exact_mod_cast (by omega)
      push_cast at this
      linarith
    have := (abs_lt.1 strict).1
    rw [hk] at this
    linarith

/-- Below the least mantissa of an exponent there is only a quarter of a unit. -/
theorem Rounds.le_of_normal {q : ℚ} {k : ℕ} {e : ℤ} (h : Rounds q k e) (he : -1074 < e) :
    (2 ^ 52 - 1 / 4) * 2 ^ e ≤ q := by
  have unit : (0 : ℚ) < 2 ^ e := by positivity
  have normal : 2 ^ 52 ≤ k := (h.normal.resolve_left he.ne').2
  obtain hk | hk := Nat.lt_or_eq_of_le normal
  · have hk : (2 : ℚ) ^ 52 + 1 ≤ k := by exact_mod_cast hk
    have := mul_le_mul_of_nonneg_right hk unit.le
    linarith only [this, (abs_le.1 h.near).2, unit]
  · have := h.below he hk.symm
    rw [← hk] at this
    push_cast at this
    linarith

/-- The exponent stays in range exactly if the number is below the limit. -/
theorem Rounds.lt_iff {q : ℚ} {k : ℕ} {e : ℤ} (h : Rounds q k e) :
    e < 972 ↔ q < 2 ^ (1024 : ℤ) - 2 ^ (970 : ℤ) := by
  rw [limit_eq]
  constructor
  · intro he
    have hpow : (2 : ℚ) ^ e ≤ 2 ^ (971 : ℤ) := zpow_le_zpow_right₀ one_le_two (by omega)
    exact h.lt_greatest.trans_le (mul_le_mul_of_nonneg_left hpow (by norm_num))
  · intro hq
    by_contra he
    have hpow : (2 : ℚ) * 2 ^ (971 : ℤ) ≤ 2 ^ e := by
      rw [← zpow_one_add₀ two_ne_zero]
      exact zpow_le_zpow_right₀ one_le_two (by omega)
    have scaled := mul_le_mul_of_nonneg_left hpow (by norm_num : (0 : ℚ) ≤ 2 ^ 52 - 1 / 4)
    have above := h.le_of_normal (by omega)
    have unit : (0 : ℚ) < 2 ^ (971 : ℤ) := by positivity
    linarith only [scaled, above, hq, unit]

/-- Rounding does not pass a power of two. -/
theorem Rounds.le_two_pow {q : ℚ} {k : ℕ} {e j : ℤ} (h : Rounds q k e) (hj : -1074 ≤ j)
    (hq : q ≤ 2 ^ j) : (k : ℚ) * 2 ^ e ≤ 2 ^ j := by
  have unit : (0 : ℚ) < 2 ^ e := by positivity
  have near := (abs_le.1 h.near).2
  by_cases he : e ≤ j
  · obtain ⟨n, rfl⟩ : ∃ n : ℕ, j = n + e := ⟨(j - e).toNat, by omega⟩
    rw [zpow_add₀ two_ne_zero, zpow_natCast] at hq ⊢
    refine mul_le_mul_of_nonneg_right ?_ unit.le
    have : (k : ℚ) * 2 ^ e < (2 ^ n + 1) * 2 ^ e := by linarith
    have : (k : ℚ) < ((2 ^ n + 1 : ℕ) : ℚ) := by exact_mod_cast lt_of_mul_lt_mul_right this unit.le
    exact_mod_cast Nat.lt_succ_iff.1 (by exact_mod_cast this)
  · -- a mantissa of 53 bits above the power of two is out of reach
    have normal : 2 ^ 52 ≤ k := (h.normal.resolve_left (by omega)).2
    have hk : (2 : ℚ) ^ 52 ≤ k := by exact_mod_cast normal
    have hpow : (2 : ℚ) ^ j ≤ 2 ^ e := zpow_le_zpow_right₀ one_le_two (by omega)
    linarith [mul_le_mul_of_nonneg_right hk unit.le]

theorem Rounds.two_pow_le {q : ℚ} {k : ℕ} {e j : ℤ} (h : Rounds q k e) (hj : -1074 ≤ j)
    (hq : 2 ^ j ≤ q) : 2 ^ j ≤ (k : ℚ) * 2 ^ e := by
  have unit : (0 : ℚ) < 2 ^ e := by positivity
  have near := (abs_le.1 h.near).1
  by_cases he : e ≤ j
  · obtain ⟨n, rfl⟩ : ∃ n : ℕ, j = n + e := ⟨(j - e).toNat, by omega⟩
    rw [zpow_add₀ two_ne_zero, zpow_natCast] at hq ⊢
    refine mul_le_mul_of_nonneg_right ?_ unit.le
    have : (2 ^ n : ℚ) * 2 ^ e < (k + 1) * 2 ^ e := by linarith
    have : ((2 ^ n : ℕ) : ℚ) < ((k + 1 : ℕ) : ℚ) := by
      exact_mod_cast lt_of_mul_lt_mul_right this unit.le
    exact_mod_cast Nat.lt_succ_iff.1 (by exact_mod_cast this)
  · have normal : 2 ^ 52 ≤ k := (h.normal.resolve_left (by omega)).2
    have hk : (1 : ℚ) ≤ k := by exact_mod_cast (by omega : 1 ≤ k)
    have hpow : (2 : ℚ) ^ j ≤ 2 ^ e := zpow_le_zpow_right₀ one_le_two (by omega)
    linarith [mul_le_mul_of_nonneg_right hk unit.le]

/-! ## Rounded doubles -/

/-- A double that a number was rounded to: finite if the number fits, and not beyond a power of two
that the number does not pass. -/
structure IsRounded (z : Float) (q : ℚ) : Prop where
  isFinite_iff : z.isFinite = true ↔ BelowOverflow q
  abs_value_le {j : ℤ} (hj : -1074 ≤ j) (h : |q| ≤ 2 ^ j) : |value z| ≤ 2 ^ j
  le_abs_value {j : ℤ} (hj : -1074 ≤ j) (finite : z.isFinite = true) (h : 2 ^ j ≤ |q|) :
    2 ^ j ≤ |value z|

theorem belowOverflow_of_le {q : ℚ} {j : ℤ} (hj : j ≤ 1023) (h : |q| ≤ 2 ^ j) :
    BelowOverflow q := by
  have double : (2 : ℚ) ^ (1024 : ℤ) = 2 ^ (1023 : ℤ) + 2 ^ (1023 : ℤ) := by
    rw [← two_mul, ← zpow_one_add₀ two_ne_zero]
    rfl
  have less : (2 : ℚ) ^ (970 : ℤ) < 2 ^ (1023 : ℤ) := zpow_lt_zpow_right₀ one_lt_two (by omega)
  have hpow : (2 : ℚ) ^ j ≤ 2 ^ (1023 : ℤ) := zpow_le_zpow_right₀ one_le_two hj
  refine (h.trans hpow).trans_lt ?_
  rw [double]
  exact lt_sub_iff_add_lt.2 (add_lt_add_right less _)

theorem abs_sign (s : Sign) (q : ℚ) : |(s.apply 1 : ℚ) * q| = |q| := by
  have h : |(s.apply 1 : ℚ)| = 1 := by cases s <;> simp [Sign.apply]
  rw [abs_mul, h, one_mul]

/-- The value of a double fits. -/
theorem belowOverflow_value {x : Float} (h : x.isFinite = true) : BelowOverflow (value x) := by
  have cx := canonical_unpack x
  rw [isFinite_eq] at h
  unfold value
  generalize unpack x = u at *
  cases u with
  | notANumber | infinity _ => simp [UnpackedFloat.isFinite] at h
  | zero s =>
    refine belowOverflow_of_le (j := 0) (by decide) ?_
    rw [partsValue_zero, abs_zero]
    exact zero_le_one.trans_eq (zpow_zero _).symm
  | finite s m e hm =>
    obtain ⟨hlt, hmin, hmax, hnormal⟩ := cx
    have rounds : Rounds (m * 2 ^ e) m e := by
      refine ⟨hlt, by omega, ?_, fun heq => ?_, fun _ _ => ?_⟩
      · rw [sub_self, abs_zero]
        positivity
      · rw [sub_self, abs_zero] at heq
        have : (0 : ℚ) < 2 ^ e / 2 := by positivity
        exact absurd heq this.ne
      · rw [sub_self]
        positivity
    rw [BelowOverflow, abs_partsValue]
    exact rounds.lt_iff.1 hmax

theorem IsExact.isRounded {x : Float} {q : ℚ} (h : IsExact x q) : IsRounded x q := by
  obtain ⟨finite, rfl⟩ := h
  exact ⟨iff_of_true finite (belowOverflow_value finite), fun _ h => h, fun _ _ h => h⟩

/-- An exponent out of range gives an infinity. -/
theorem unpack_pack_of_le (s : Sign) {k : ℕ} {f : ℤ} (hk : 0 < k) (hf : 972 ≤ f) :
    unpack (pack (.finite s k f hk)) = .infinity s := by
  rw [unpack_pack_eq, pack_finite, if_pos (by omega)]
  exact (unpack_packComponents s (-1#_) 0#_).trans (by simp [ofFields])

theorem isRounded_infinite {x : Float} {q : ℚ} {s : Sign} (h : unpack x = .infinity s)
    (overflow : ¬BelowOverflow q) : IsRounded x q := by
  have infinite : x.isFinite = false := by
    rw [isFinite_eq, h]
    rfl
  refine ⟨iff_of_false (by simp [infinite]) overflow, fun _ _ => ?_, fun _ finite => ?_⟩
  · have value_eq : value x = 0 := by
      rw [value, h]
      rfl
    rw [value_eq, abs_zero]
    positivity
  · rw [infinite] at finite
    cases finite

/-- **Rounding overflows at the limit.** -/
theorem isRounded_roundWithAccuracy {m : ℕ} {e : ℤ} {a : Accuracy} {x : ℚ}
    (cuts : Cuts (.ofMantissaAndAccuracy m a) x)
    (he : e ≤ max (totalExponent m e - 53) (-1074)) (s : Sign) :
    IsRounded (pack (roundWithAccuracy .binary64 s m e a)) (s.apply 1 * (x * 2 ^ e)) := by
  obtain ⟨k, f, rounds, rounded⟩ := exists_rounds cuts he
  have nonneg : (0 : ℚ) ≤ x * 2 ^ e := by
    have := cuts.le
    have : (0 : ℚ) ≤ x := (Nat.cast_nonneg _).trans this
    positivity
  have abs_q : |(s.apply 1 : ℚ) * (x * 2 ^ e)| = x * 2 ^ e := by
    rw [abs_sign, abs_of_nonneg nonneg]
  have limit : BelowOverflow (s.apply 1 * (x * 2 ^ e)) ↔ f < 972 := by
    rw [BelowOverflow, abs_q, rounds.lt_iff]
  rw [rounded s]
  by_cases hk : k = 0
  · -- rounded to zero
    have low : f < 972 := by
      have := rounds.normal
      omega
    rw [dif_pos hk]
    refine ⟨iff_of_true (isExact_zero s).isFinite (limit.2 low), fun _ _ => ?_, fun hj _ h => ?_⟩
    · rw [(isExact_zero s).value_eq, abs_zero]
      positivity
    · rw [abs_q] at h
      have := rounds.two_pow_le hj h
      rw [(isExact_zero s).value_eq, abs_zero]
      simpa [hk] using this
  · rw [dif_neg hk]
    by_cases hf : f < 972
    · have canonical : Canonical (.finite s k f (Nat.pos_of_ne_zero hk)) := by
        have := rounds.lt
        have := rounds.normal
        exact ⟨rounds.lt, by omega, hf, by omega⟩
      have exact_value := isExact_pack canonical rfl
      have abs_value : |value (pack (.finite s k f (Nat.pos_of_ne_zero hk)))| = k * 2 ^ f := by
        rw [exact_value.value_eq, abs_partsValue]
      refine ⟨iff_of_true exact_value.isFinite (limit.2 hf), fun hj h => ?_, fun hj _ h => ?_⟩
      · rw [abs_value]
        exact rounds.le_two_pow hj (abs_q ▸ h)
      · rw [abs_value]
        exact rounds.two_pow_le hj (abs_q ▸ h)
    · exact isRounded_infinite (unpack_pack_of_le s _ (by omega)) fun below => hf (limit.1 below)

/-! ## Operations -/

theorem isRounded_normalize (n e : ℤ) (z : Sign) :
    IsRounded (pack (normalize .binary64 n e z)) (n * 2 ^ e) := by
  have round {m : ℕ} (hm : m ≠ 0) (s : Sign) :
      IsRounded (pack (round .binary64 s m e)) (s.apply 1 * (m * 2 ^ e)) := by
    simp only [UnpackedFloat.round, decreaseExponent, targetExponent_eq]
    set k := (e - max (totalExponent m e - 53) (-1074)).toNat with hk
    have total : totalExponent (m <<< k) (e - k) = totalExponent m e := by
      rw [totalExponent_eq (log2_shiftLeft hm k), totalExponent_eq rfl]
      push_cast
      ring
    rw [← shiftLeft_value m k e]
    exact isRounded_roundWithAccuracy (cuts_exact _) (by omega) s
  unfold UnpackedFloat.normalize
  obtain hlt | rfl | hgt := lt_trichotomy n 0
  · have cast : ((-n).toNat : ℚ) = -n := by exact_mod_cast Int.toNat_of_nonneg (by omega)
    have h := round (m := (-n).toNat) (by omega) .negative
    rw [compare_lt_iff_lt.2 hlt]
    rw [cast] at h
    simpa [Sign.apply] using h
  · rw [compare_eq_iff_eq.2 rfl]
    simpa using (isExact_zero z).isRounded
  · have cast : (n.toNat : ℚ) = n := by exact_mod_cast Int.toNat_of_nonneg (by omega)
    have h := round (m := n.toNat) (by omega) .positive
    rw [compare_gt_iff_gt.2 hgt]
    rw [cast] at h
    simpa [Sign.apply] using h

section Operations

variable {x y : Float}

theorem isRounded_add (hx : x.isFinite = true) (hy : y.isFinite = true) :
    IsRounded (x + y) (value x + value y) := by
  have cx := canonical_unpack x
  have cy := canonical_unpack y
  rw [isFinite_eq] at hx hy
  rw [add_eq]
  unfold value
  generalize unpack x = u at *
  generalize unpack y = v at *
  cases u with
  | notANumber | infinity _ => simp [UnpackedFloat.isFinite] at hx
  | zero s =>
    rw [partsValue_zero, zero_add]
    cases v with
    | notANumber | infinity _ => simp [UnpackedFloat.isFinite] at hy
    | zero t =>
      simp only [UnpackedFloat.add]
      split
      · exact (isExact_zero s).isRounded
      · exact (isExact_zero .positive).isRounded
    | finite t m e hm => exact (isExact_pack cy rfl).isRounded
  | finite s m e hm =>
    cases v with
    | notANumber | infinity _ => simp [UnpackedFloat.isFinite] at hy
    | zero t =>
      rw [partsValue_zero, add_zero]
      exact (isExact_pack cx rfl).isRounded
    | finite t m' e' hm' =>
      rw [partsValue_add, add_finite]
      exact isRounded_normalize _ _ _

theorem isRounded_sub (hx : x.isFinite = true) (hy : y.isFinite = true) :
    IsRounded (x - y) (value x - value y) := by
  rw [sub_eq_add_neg, ← value_neg, sub_eq_add]
  exact isRounded_add hx (by rw [isFinite_neg, hy])

theorem isRounded_mul_parts {s t : Sign} {m m' : ℕ} {e e' : ℤ} {hm : 0 < m} {hm' : 0 < m'}
    (digits : e + e' ≤ max (totalExponent (m * m') (e + e') - 53) (-1074)) :
    IsRounded (pack (.mul .binary64 (.finite s m e hm) (.finite t m' e' hm')))
      (partsValue (.finite s m e hm) * partsValue (.finite t m' e' hm')) := by
  rw [partsValue_mul]
  exact isRounded_roundWithAccuracy (cuts_exact _) digits (s * t)

theorem isRounded_mul (hx : x.isFinite = true) (hy : y.isFinite = true) :
    IsRounded (x * y) (value x * value y) := by
  have cx := canonical_unpack x
  have cy := canonical_unpack y
  rw [isFinite_eq] at hx hy
  rw [mul_eq]
  unfold value
  generalize unpack x = u at *
  generalize unpack y = v at *
  cases u with
  | notANumber | infinity _ => simp [UnpackedFloat.isFinite] at hx
  | zero s =>
    rw [partsValue_zero, zero_mul]
    cases v with
    | notANumber | infinity _ => simp [UnpackedFloat.isFinite] at hy
    | zero t | finite t _ _ _ => exact (isExact_zero (s * t)).isRounded
  | finite s m e hm =>
    cases v with
    | notANumber | infinity _ => simp [UnpackedFloat.isFinite] at hy
    | zero t =>
      rw [partsValue_zero, mul_zero]
      exact (isExact_zero (s * t)).isRounded
    | finite t m' e' hm' =>
      have digits := digits_mul cx cy
      exact isRounded_mul_parts (by omega)

theorem isRounded_div_parts {s t : Sign} {m m' : ℕ} {e e' : ℤ} {hm : 0 < m} {hm' : 0 < m'} :
    IsRounded (pack (.div .binary64 (.finite s m e hm) (.finite t m' e' hm')))
      (partsValue (.finite s m e hm) / partsValue (.finite t m' e' hm')) := by
  obtain ⟨q, f, a, x, rounded, cuts, digits, hvalue⟩ := exists_div_parts s t m m' e e' hm hm'
  rw [hvalue, rounded]
  refine isRounded_roundWithAccuracy cuts (le_max_iff.2 (digits.imp_left fun digits => ?_)) _
  have hlog := (Nat.le_log2 (by omega : q ≠ 0)).2 digits
  rw [totalExponent_eq rfl]
  omega

theorem isRounded_div (hx : x.isFinite = true) (hy : y.isFinite = true) (hne : value y ≠ 0) :
    IsRounded (x / y) (value x / value y) := by
  rw [isFinite_eq] at hx hy
  rw [div_eq]
  unfold value at hne ⊢
  generalize unpack x = u at *
  generalize unpack y = v at *
  cases v with
  | notANumber | infinity _ => simp [UnpackedFloat.isFinite] at hy
  | zero t => exact absurd rfl hne
  | finite t m' e' hm' =>
    cases u with
    | notANumber | infinity _ => simp [UnpackedFloat.isFinite] at hx
    | zero s =>
      rw [partsValue_zero, zero_div]
      exact (isExact_zero (s / t)).isRounded
    | finite s m e hm => exact isRounded_div_parts

/-! ### Finite results -/

/-- Infinities and the special value stay what they are. -/
theorem isFinite_of_pack {u : UnpackedFloat} (h : (pack u).isFinite = true) :
    u.isFinite = true := by
  cases u with
  | notANumber | infinity _ => rwa [isFinite_eq, unpack_pack (by trivial)] at h
  | zero | finite => rfl

theorem isFinite_of_add (h : (x + y).isFinite = true) :
    x.isFinite = true ∧ y.isFinite = true := by
  have h := isFinite_of_pack (add_eq x y ▸ h)
  rw [isFinite_eq, isFinite_eq]
  generalize unpack x = u at *
  generalize unpack y = v at *
  cases u with
  | notANumber => simp [UnpackedFloat.add, UnpackedFloat.isFinite] at h
  | infinity s =>
    cases v with
    | infinity t => cases s <;> cases t <;> cases h
    | _ => cases h
  | _ =>
    cases v with
    | notANumber | infinity _ => cases h
    | _ => exact ⟨rfl, rfl⟩

theorem isFinite_of_sub (h : (x - y).isFinite = true) :
    x.isFinite = true ∧ y.isFinite = true := by
  rw [sub_eq_add] at h
  rw [← isFinite_neg y]
  exact isFinite_of_add h

theorem isFinite_of_mul (h : (x * y).isFinite = true) :
    x.isFinite = true ∧ y.isFinite = true := by
  have h := isFinite_of_pack (mul_eq x y ▸ h)
  rw [isFinite_eq, isFinite_eq]
  generalize unpack x = u at *
  generalize unpack y = v at *
  cases u with
  | notANumber => cases h
  | infinity _ => cases v <;> cases h
  | _ =>
    cases v with
    | notANumber | infinity _ => cases h
    | _ => exact ⟨rfl, rfl⟩

/-- A quotient is finite only if its dividend is; the divisor may be infinite. -/
theorem isFinite_of_div (h : (x / y).isFinite = true) : x.isFinite = true := by
  have h := isFinite_of_pack (div_eq x y ▸ h)
  rw [isFinite_eq]
  generalize unpack x = u at *
  generalize unpack y = v at *
  cases u with
  | notANumber => cases h
  | infinity _ => cases v <;> cases h
  | _ => rfl

theorem isFinite_add_iff (hx : x.isFinite = true) (hy : y.isFinite = true) :
    (x + y).isFinite = true ↔ BelowOverflow (value x + value y) :=
  (isRounded_add hx hy).isFinite_iff

/-- A finite number divided by an infinity is zero. -/
theorem isFinite_div_of_infinite (hx : x.isFinite = true) {s : Sign} (hy : unpack y = .infinity s) :
    (x / y).isFinite = true := by
  rw [isFinite_eq] at hx
  rw [div_eq, hy]
  generalize unpack x = u at *
  cases u with
  | notANumber | infinity _ => simp [UnpackedFloat.isFinite] at hx
  | zero r => exact (isExact_zero (r / s)).isFinite
  | finite r _ _ _ => exact (isExact_zero (r / s)).isFinite

/-! ### Square roots -/

/-- The root is rounded from its digits and a remainder. -/
theorem exists_sqrtCore {m : ℕ} (hm : m ≠ 0) (e : ℤ) :
    ∃ (k : ℕ) (t : ℤ) (a : Accuracy) (x : ℚ), sqrtCore .binary64 m e = (k, t, a) ∧
      Cuts (.ofMantissaAndAccuracy k a) x ∧ t ≤ max (totalExponent k t - 53) (-1074) ∧
      (k * 2 ^ t) ^ 2 ≤ (m : ℚ) * 2 ^ e ∧ k ≠ 0 := by
  set t := min (e / 2) (Format.binary64.targetExponent ((totalExponent m e + 1) / 2)) with ht
  set n := (e - 2 * t).toNat with hn
  have digits : ((m <<< n : ℕ) : ℚ) * (2 ^ t) ^ 2 = m * 2 ^ e := by
    have hvalue := shiftLeft_value m n e
    have exponent : e - (n : ℤ) = t + t := by omega
    rw [exponent, zpow_add₀ two_ne_zero, ← sq] at hvalue
    exact hvalue
  have positive : m <<< n ≠ 0 := by
    rw [Nat.shiftLeft_eq]
    exact Nat.mul_ne_zero hm (Nat.two_pow_pos n).ne'
  have square := Nat.sqrt_le' (m <<< n)
  have core : sqrtCore .binary64 m e = (Nat.sqrt (m <<< n), t,
      if m <<< n - Nat.sqrt (m <<< n) * Nat.sqrt (m <<< n) = 0 then .exact
      else .inexact (if m <<< n - Nat.sqrt (m <<< n) * Nat.sqrt (m <<< n) ≤ Nat.sqrt (m <<< n)
        then .lt else .gt)) := rfl
  have root_ne_zero : Nat.sqrt (m <<< n) ≠ 0 := by
    rw [Ne, Nat.sqrt_eq_zero]
    exact positive
  have bound : ((Nat.sqrt (m <<< n) : ℕ) * 2 ^ t : ℚ) ^ 2 ≤ m * 2 ^ e := by
    rw [← digits, mul_pow]
    exact mul_le_mul_of_nonneg_right (by exact_mod_cast square) (by positivity)
  have exponent : t ≤ max (totalExponent (Nat.sqrt (m <<< n)) t - 53) (-1074) := by
    have target := min_le_right (e / 2) (Format.binary64.targetExponent
      ((totalExponent m e + 1) / 2))
    rw [← ht, targetExponent_eq, le_max_iff] at target
    refine le_max_iff.2 (target.imp_left fun target => ?_)
    -- the shifted mantissa has enough digits for a root of 53 bits
    have log : (m <<< n).log2 = m.log2 + n := log2_shiftLeft hm n
    rw [totalExponent_eq rfl] at target
    have enough : 2 ^ 52 * 2 ^ 52 ≤ m <<< n :=
      (Nat.pow_le_pow_right (by decide) (by omega : 104 ≤ (m <<< n).log2)).trans
        (Nat.log2_self_le positive)
    have hlog := (Nat.le_log2 root_ne_zero).2 (Nat.le_sqrt.2 enough)
    rw [totalExponent_eq rfl]
    omega
  have lt : Ordering.lt = compare (1 / 4 : ℚ) (1 / 2) := (compare_lt_iff_lt.2 (by norm_num)).symm
  have gt : Ordering.gt = compare (3 / 4 : ℚ) (1 / 2) := (compare_gt_iff_gt.2 (by norm_num)).symm
  rw [core]
  split_ifs
  · exact ⟨_, _, _, _, rfl, cuts_exact _, exponent, bound, root_ne_zero⟩
  · rw [lt]
    exact ⟨_, _, _, _, rfl, cuts_inexact _ (by norm_num) (by norm_num), exponent, bound,
      root_ne_zero⟩
  · rw [gt]
    exact ⟨_, _, _, _, rfl, cuts_inexact _ (by norm_num) (by norm_num), exponent, bound,
      root_ne_zero⟩

/-- **The root of a positive double is finite**, and at most twice the exact root. -/
theorem sqrt_bounds (hx : x.isFinite = true) (pos : 0 < value x) {j : ℤ} (hj : -1074 ≤ j)
    (hj' : j < 1023) (h : value x ≤ (2 ^ j) ^ 2) :
    x.sqrt.isFinite = true ∧ |value x.sqrt| ≤ 2 ^ (j + 1) := by
  rw [isFinite_eq] at hx
  rw [sqrt_eq]
  unfold value at pos h
  generalize unpack x = u at *
  cases u with
  | notANumber | infinity _ => simp [UnpackedFloat.isFinite] at hx
  | zero s => exact absurd pos (lt_irrefl 0)
  | finite s m e hm =>
    cases s with
    | negative =>
      rw [partsValue_negative] at pos
      have : (0 : ℚ) < m * 2 ^ e := by positivity
      linarith
    | positive =>
      obtain ⟨k, t, a, x, core, cuts, exponent, bound, hk⟩ := exists_sqrtCore hm.ne' e
      have unfolded : UnpackedFloat.sqrt .binary64 (.finite .positive m e hm) =
          roundWithAccuracy .binary64 .positive k t a := by
        simp only [UnpackedFloat.sqrt, core]
      have unit : (0 : ℚ) < 2 ^ t := by positivity
      have root : (k : ℚ) * 2 ^ t ≤ 2 ^ j := by
        rw [partsValue_positive] at h
        exact (sq_le_sq₀ (by positivity) (by positivity)).1 (bound.trans h)
      have twice : x * 2 ^ t ≤ 2 ^ (j + 1) := by
        have hlt := cuts.lt
        rw [mantissa_ofMantissaAndAccuracy] at hlt
        have one : (1 : ℚ) ≤ k := by exact_mod_cast Nat.pos_of_ne_zero hk
        have double : x ≤ 2 * k := by linarith
        rw [zpow_add_one₀ two_ne_zero]
        linarith [mul_le_mul_of_nonneg_right double unit.le]
      have abs_le : |((Sign.positive.apply 1 : ℤ) : ℚ) * (x * 2 ^ t)| ≤ 2 ^ (j + 1) := by
        have hle := cuts.le
        rw [mantissa_ofMantissaAndAccuracy] at hle
        have nonneg : (0 : ℚ) ≤ x := (Nat.cast_nonneg k).trans hle
        rw [abs_sign, abs_of_nonneg (by positivity)]
        exact twice
      have rounded := isRounded_roundWithAccuracy cuts exponent .positive
      rw [unfolded]
      exact ⟨rounded.isFinite_iff.2 (belowOverflow_of_le (by omega) abs_le),
        rounded.abs_value_le (by omega) abs_le⟩

end Operations

end Reckoner.Double
