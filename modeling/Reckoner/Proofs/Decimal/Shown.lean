import Reckoner.Proofs.Decimal.Places

/-!
# Reading what is shown

What is shown of a double need not be its value, and so it may be read as another double; but that
one is shown in the same way (`shownUnits_of_isNearest`). The double that is read is at least as
near to what is shown as the one that was shown, so it is shown in another way only if both are half
a unit of the last place away, one on either side. Then they are one unit apart, and no two doubles
are, since ten is no power of two (`value_sub_ne_unit`).
-/

namespace Reckoner.Decimal

open Double Float.Model Float.Model.UnpackedFloat

/-! ## The values of doubles -/

/-- A double is a whole number of the least unit. -/
theorem exists_value_eq (x : Float) : ∃ k : ℤ, value x = k * 2 ^ (-1074 : ℤ) := by
  have hx := canonical_unpack x
  unfold value
  generalize unpack x = u at hx
  cases u with
  | finite s m e hm =>
    refine ⟨s.apply m * 2 ^ (e + 1074).toNat, ?_⟩
    have split : (2 : ℚ) ^ e = 2 ^ (e + 1074).toNat * 2 ^ (-1074 : ℤ) := by
      rw [← zpow_natCast, ← zpow_add₀ two_ne_zero]
      congr 1
      have := hx.2.1
      omega
    rw [partsValue, split, ← mul_assoc]
    generalize (2 : ℚ) ^ (-1074 : ℤ) = unit
    push_cast
    rfl
  | _ => exact ⟨0, by simp [partsValue]⟩

/-- No two doubles are one unit of the last place apart. -/
theorem value_sub_ne_unit (x y : Float) : (value x - value y) * scale ≠ 1 := by
  obtain ⟨a, ha⟩ := exists_value_eq x
  obtain ⟨b, hb⟩ := exists_value_eq y
  obtain ⟨n, hn⟩ : ∃ n : ℕ, (-1074 : ℤ) = -n := ⟨1074, rfl⟩
  rw [hn] at ha hb
  intro h
  have whole : (a - b) * 10 ^ 10 = 2 ^ n := by
    have unit : (2 : ℚ) ^ (-n : ℤ) * 2 ^ n = 1 := by
      rw [zpow_neg, zpow_natCast]
      exact inv_mul_cancel₀ (by positivity)
    have cast : ((a : ℚ) - b) * 10 ^ 10 = 2 ^ n := by
      rw [ha, hb, cast_scale] at h
      calc ((a : ℚ) - b) * 10 ^ 10
          = (a * 2 ^ (-n : ℤ) - b * 2 ^ (-n : ℤ)) * 10 ^ 10 * 2 ^ n := by
            rw [← sub_mul, mul_right_comm _ _ ((10 : ℚ) ^ 10), mul_assoc, unit, mul_one]
        _ = 2 ^ n := by rw [h, one_mul]
    exact_mod_cast cast
  have five : (5 : ℤ) ∣ 2 ^ n := whole ▸ Dvd.dvd.mul_left (by decide) _
  exact absurd (Int.Prime.dvd_pow' Nat.prime_five five) (by decide)

theorem abs_value_lt (x : Float) : |value x| < 2 ^ (1024 : ℤ) - 2 ^ (970 : ℤ) := by
  have hx := canonical_unpack x
  unfold value
  generalize unpack x = u at hx
  have units : (2 : ℚ) ^ (970 : ℤ) < 2 ^ (971 : ℤ) := zpow_lt_zpow_right₀ one_lt_two (by omega)
  cases u with
  | finite s m e hm =>
    have hm' : (m : ℚ) + 1 ≤ 2 ^ (53 : ℤ) := by exact_mod_cast hx.1
    have he : (2 : ℚ) ^ e ≤ 2 ^ (971 : ℤ) := zpow_le_zpow_right₀ one_le_two (by
      have := hx.2.2.1
      omega)
    have top : (2 : ℚ) ^ (1024 : ℤ) = 2 ^ (53 : ℤ) * 2 ^ (971 : ℤ) := by
      rw [← zpow_add₀ two_ne_zero]
      rfl
    rw [abs_partsValue, lt_sub_iff_add_lt]
    calc (m : ℚ) * 2 ^ e + 2 ^ (970 : ℤ) < m * 2 ^ (971 : ℤ) + 2 ^ (971 : ℤ) :=
          add_lt_add_of_le_of_lt (mul_le_mul_of_nonneg_left he (Nat.cast_nonneg m)) units
      _ = (m + 1) * 2 ^ (971 : ℤ) := (add_one_mul _ _).symm
      _ ≤ 2 ^ (53 : ℤ) * 2 ^ (971 : ℤ) := mul_le_mul_of_nonneg_right hm' (by positivity)
      _ = 2 ^ (1024 : ℤ) := top.symm
  | _ =>
    have large : (2 : ℚ) ^ (970 : ℤ) < 2 ^ (1024 : ℤ) := zpow_lt_zpow_right₀ one_lt_two (by omega)
    change |(0 : ℚ)| < _
    rw [abs_zero]
    exact sub_pos.2 large

/-! ## What is shown is in the range of doubles -/

/-- What is shown is at most half a unit of the last place away. -/
theorem abs_shownUnits_sub_le (x : Float) : |(shownUnits x : ℚ) - |value x| * scale| ≤ 1 / 2 := by
  obtain ⟨hle, hlt⟩ := shownUnits_eq_iff.1 (rfl : shownUnits x = _)
  exact abs_le.2 ⟨by linarith, by linarith⟩

/-- A whole number is shown exactly. -/
theorem shownUnits_of_nat {x : Float} {n : ℕ} (h : |value x| = n) : shownUnits x = n * scale := by
  rw [shownUnits_eq_iff, h]
  push_cast
  constructor <;> linarith

/-- Units of the last place are in the range of normal numbers. -/
theorem le_div_scale {n : ℕ} (h : n ≠ 0) : (2 : ℚ) ^ (-1022 : ℤ) ≤ n / scale := by
  have hscale : (0 : ℚ) < scale := by exact_mod_cast scale_pos
  have one : (1 : ℚ) ≤ n := by exact_mod_cast Nat.one_le_iff_ne_zero.2 h
  have place : (2 : ℚ) ^ (-34 : ℤ) * scale ≤ 1 := by
    rw [zpow_neg, inv_mul_le_iff₀ (by positivity)]
    norm_num [scale, places]
  rw [le_div_iff₀ hscale]
  calc (2 : ℚ) ^ (-1022 : ℤ) * scale ≤ 2 ^ (-34 : ℤ) * scale :=
        mul_le_mul_of_nonneg_right (zpow_le_zpow_right₀ one_le_two (by omega)) hscale.le
    _ ≤ 1 := place
    _ ≤ n := one

/-- **What is shown is in the range of normal doubles**, unless it is zero. -/
theorem inRange_shownUnits {x : Float} (h : shownUnits x ≠ 0) : InRange (shownUnits x / scale) := by
  have hscale : (0 : ℚ) < scale := by exact_mod_cast scale_pos
  have nonneg : (0 : ℚ) ≤ shownUnits x / scale := by positivity
  have low := le_div_scale h
  obtain ⟨k, hk⟩ | small := exists_value_eq_or_lt x 0
  · -- a whole number is shown exactly, so what is shown is in the range of finite doubles
    have whole : |value x| = k.natAbs := by
      rw [hk, zpow_zero, mul_one, Nat.cast_natAbs, Int.cast_abs]
    have exact : (shownUnits x : ℚ) / scale = |value x| := by
      rw [shownUnits_of_nat whole, whole]
      push_cast
      field_simp
    refine ⟨by rwa [abs_of_nonneg nonneg], ?_⟩
    rw [abs_of_nonneg nonneg, exact]
    exact abs_value_lt x
  · refine inRange_of_lt (by rwa [abs_of_nonneg nonneg]) ?_
    have near := (abs_le.1 (abs_shownUnits_sub_le x)).2
    have one : (1 : ℚ) ≤ scale := by exact_mod_cast scale_pos
    have small : |value x| < 2 ^ 52 := by simpa using small
    have bound : (shownUnits x : ℚ) / scale < 2 ^ (53 : ℤ) := by
      have double : (2 : ℚ) ^ (53 : ℤ) = 2 ^ 52 + 2 ^ 52 := by norm_num
      have := mul_lt_mul_of_pos_right small hscale
      rw [div_lt_iff₀ hscale, double, add_mul]
      linarith
    rw [abs_of_nonneg nonneg]
    exact bound.trans_le (zpow_le_zpow_right₀ one_le_two (by omega))

/-! ## The double that is read -/

/-- **What is shown is read as the double nearest to it.** -/
theorem isNearest_shown (x : Float) :
    IsNearest ((shownDigits (shownUnits x)).value 0) (shownUnits x / scale) := by
  have hvalue := value_shownDigits (shownUnits x)
  rw [← hvalue]
  refine Digits.isNearest_value ?_
  by_cases h0 : shownUnits x = 0
  · rw [h0, Nat.cast_zero, zero_div] at hvalue
    rw [h0]
    have ten : (10 : ℚ) ^ (-(shownDigits 0).fraction.length : ℤ) ≠ 0 := by positivity
    exact .inl (by exact_mod_cast (mul_eq_zero.1 hvalue).resolve_right ten)
  · rw [hvalue]
    exact .inr (inRange_shownUnits h0)

/-- **The double nearest to what is shown is shown in the same way.** -/
theorem shownUnits_of_isNearest {x y : Float} (hx : x.isFinite = true)
    (h : IsNearest y (shownUnits x / scale)) :
    shownUnits y = shownUnits x ∧ (shownUnits x ≠ 0 → 0 < value y) := by
  have hscale : (0 : ℚ) < scale := by exact_mod_cast scale_pos
  by_cases h0 : shownUnits x = 0
  · rw [h0, Nat.cast_zero, zero_div] at h
    have zero := h.isExact (isExact_zero .positive)
    refine ⟨?_, fun h => absurd h0 h⟩
    rw [h0, shownUnits_eq_iff, zero.value_eq]
    norm_num
  -- in units of the last place
  have magnitude : IsExact x.abs |value x| := IsExact.abs ⟨hx, rfl⟩
  have nearer : |value y * scale - shownUnits x| ≤ |(shownUnits x : ℚ) - |value x| * scale| := by
    have hle := h.le x.abs magnitude.isFinite
    rw [magnitude.value_eq] at hle
    have units (q : ℚ) : |q - shownUnits x / scale| * scale = |q * scale - shownUnits x| := by
      rw [← abs_of_pos hscale, ← abs_mul, abs_of_pos hscale, sub_mul, div_mul_cancel₀ _ hscale.ne']
    have hle := mul_le_mul_of_nonneg_right hle hscale.le
    rwa [units, units, abs_sub_comm (|value x| * scale)] at hle
  have half := nearer.trans (abs_shownUnits_sub_le x)
  obtain ⟨hlow, hhigh⟩ := abs_le.1 half
  have one : (1 : ℚ) ≤ shownUnits x := by exact_mod_cast Nat.one_le_iff_ne_zero.2 h0
  have positive : 0 < value y := by
    by_contra hneg
    have := mul_nonpos_of_nonpos_of_nonneg (not_lt.1 hneg) hscale.le
    linarith
  refine ⟨?_, fun _ => positive⟩
  rw [shownUnits_eq_iff, abs_of_pos positive]
  refine ⟨by linarith, lt_of_le_of_ne (by linarith) fun tie => ?_⟩
  -- half a unit above what is shown, so the other one is half a unit below it
  obtain ⟨-, hlt⟩ := shownUnits_eq_iff.1 (rfl : shownUnits x = _)
  have above : value y * scale = shownUnits x + 1 / 2 := by linarith
  have distance : |value y * scale - shownUnits x| = 1 / 2 := by
    rw [above, add_sub_cancel_left, abs_of_pos (by norm_num)]
  have below : |value x| * scale = shownUnits x - 1 / 2 := by
    rw [distance] at nearer
    obtain hle | hle := le_abs.1 nearer
    · have := (abs_le.1 (abs_shownUnits_sub_le x)).2
      linarith
    · linarith
  refine value_sub_ne_unit y x.abs ?_
  rw [magnitude.value_eq, sub_mul, above, below]
  ring

end Reckoner.Decimal
