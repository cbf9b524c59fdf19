import Reckoner.Proofs.Decimal.Shown
import Reckoner.Proofs.Double.Nearest

/-!
# Decimals with at most ten places

A decimal with at most ten places is read as a double, which is shown as some decimal with at most
ten places, and this one is read as the same double (`value_reread`), though it need not be the first
decimal. Below `2 ^ 19` it is: there the doubles are so close that the error of reading is less than
half a unit of the last place (`shownUnits_of_lt`). From `2 ^ 19` on the doubles are farther apart
than the places, so half a unit of the last place does not lead to another double
(`isNearest_shownUnits_of_le`).
-/

namespace Reckoner.Decimal

open Double

/-! ## Close doubles -/

/-- Up to `2 ^ 19` the multiples of `2 ^ -34` are doubles. -/
theorem exists_isFinite_near {q : ℚ} (nonneg : 0 ≤ q) (hq : q ≤ 2 ^ 19) :
    ∃ y : Float, y.isFinite = true ∧ |value y - q| ≤ 1 / 2 ^ 35 := by
  set k := ⌊q * 2 ^ 34 + 1 / 2⌋₊ with hk
  obtain ⟨hle, hlt⟩ := (Nat.floor_eq_iff (by positivity)).1 hk.symm
  have bound : |(k : ℤ)| ≤ 2 ^ 53 := by
    have : (k : ℚ) < 2 ^ 53 + 1 := by linarith
    rw [Nat.abs_cast]
    exact_mod_cast Nat.lt_succ_iff.1 (by exact_mod_cast this)
  obtain ⟨y, hy⟩ := exists_isExact_units_of_le bound (t := -34) (by decide) (by decide)
  have unit : (2 : ℚ) ^ (-34 : ℤ) = 1 / 2 ^ 34 := by norm_num
  refine ⟨y, hy.isFinite, ?_⟩
  rw [hy.value_eq, Int.cast_natCast, unit, abs_le]
  constructor <;> linarith

variable {y : Float} {n : ℕ}

/-- **Below `2 ^ 19` a decimal is shown as it was read.** -/
theorem shownUnits_of_lt (h : IsNearest y (n / scale)) (small : value y < 2 ^ 19) :
    shownUnits y = n := by
  have nonneg : (0 : ℚ) ≤ n / scale := by positivity
  have hy := h.value_nonneg nonneg
  have hn : (n : ℚ) / scale ≤ 2 ^ 19 := by
    -- otherwise `2 ^ 19` itself would be nearer
    by_contra large
    obtain ⟨z, hz⟩ := exists_isExact_int (n := 2 ^ 19) (by decide)
    have near := h.le z hz.isFinite
    rw [hz.value_eq] at near
    push_cast at near
    rw [abs_of_neg (by linarith), abs_of_neg (by linarith)] at near
    linarith
  obtain ⟨z, hz, near⟩ := exists_isFinite_near nonneg hn
  obtain ⟨low, high⟩ := abs_le.1 ((h.le z hz).trans near)
  have units : (n : ℚ) / scale * scale = n := div_mul_cancel₀ _ (by exact_mod_cast scale_pos.ne')
  rw [shownUnits_eq_iff, abs_of_nonneg hy]
  rw [cast_scale] at *
  constructor <;> linarith

/-! ## Close places -/

/-- **From `2 ^ 19` on what is shown is read back.** -/
theorem isNearest_shownUnits_of_le (hy : y.isFinite = true) (large : 2 ^ 19 ≤ value y) :
    IsNearest y (shownUnits y / scale) := by
  have near := abs_shownUnits_sub_le y
  obtain ⟨-, hlt⟩ := shownUnits_eq_iff.1 (rfl : shownUnits y = _)
  rw [abs_of_nonneg ((by positivity : (0 : ℚ) ≤ 2 ^ 19).trans large)] at near hlt
  have least : (2 : ℚ) ^ 19 * scale ≤ shownUnits y := by
    have hscale : (0 : ℚ) < scale := by exact_mod_cast scale_pos
    have above : (2 : ℚ) ^ 19 * scale < shownUnits y + 1 := by
      linarith [mul_le_mul_of_nonneg_right large hscale.le]
    exact_mod_cast Nat.lt_succ_iff.1 (by exact_mod_cast above : 2 ^ 19 * scale < shownUnits y + 1)
  obtain ⟨low, high⟩ := abs_le.1 near
  -- the doubles are multiples of `2 ^ -33`
  have unit : (2 : ℚ) ^ (-33 : ℤ) = 1 / 2 ^ 33 := by norm_num
  rw [cast_scale] at *
  obtain ⟨k, hk⟩ | small := exists_value_eq_or_lt y (-33)
  · have half : |(k : ℚ) - shownUnits y / 10 ^ 10 * 2 ^ 33| < 1 / 2 := by
      rw [unit] at hk
      rw [abs_lt]
      constructor <;> linarith
    have h := isNearest_of_units hy hk (y := shownUnits y / 10 ^ 10 * 2 ^ 33) (by linarith)
      half.le fun tie => absurd tie half.ne
    rwa [unit, mul_assoc, mul_one_div_cancel (by positivity), mul_one] at h
  · rw [unit] at small
    have := (abs_lt.1 small).2
    linarith

/-! ## Reading, showing and reading -/

/-- A double nearest to some units of the last place is nearest to those that it shows. -/
theorem isNearest_shownUnits (h : IsNearest y (n / scale)) :
    IsNearest y (shownUnits y / scale) := by
  obtain small | large := lt_or_ge (value y) (2 ^ 19)
  · rwa [shownUnits_of_lt h small]
  · exact isNearest_shownUnits_of_le h.isFinite large

/-- A decimal with at most ten places is some units of the last place. -/
theorem exists_units_eq {d : Digits} (h : d.fraction.length ≤ places) :
    ∃ n : ℕ, (d.units : ℚ) * 10 ^ (-d.fraction.length : ℤ) = n / scale := by
  obtain ⟨k, hk⟩ := Nat.exists_eq_add_of_le h
  refine ⟨d.units * 10 ^ k, ?_⟩
  have power : (scale : ℚ) = 10 ^ d.fraction.length * 10 ^ k := by
    rw [← pow_add, ← hk]
    norm_num [scale, places]
  rw [power, zpow_neg, zpow_natCast]
  push_cast
  field_simp

/-- A decimal with at most ten places and a finite value. -/
def IsShort (text : List Char) : Prop :=
  ∃ d, IsDecimal text d ∧ d.fraction.length ≤ places ∧ (d.value 0).isFinite = true

/-- Where the value is finite, it is the double nearest to the decimal. -/
theorem Digits.exists_isNearest {d : Digits} (h : d.fraction.length ≤ places)
    (finite : (d.value 0).isFinite = true) : ∃ n : ℕ, IsNearest (d.value 0) (n / scale) := by
  obtain ⟨n, hn⟩ := exists_units_eq h
  have near := @Digits.isNearest_value d
  rw [hn] at near
  refine ⟨n, near ?_⟩
  by_cases h0 : n = 0
  · rw [h0, Nat.cast_zero, zero_div] at hn
    have ten : (10 : ℚ) ^ (-d.fraction.length : ℤ) ≠ 0 := by positivity
    exact .inl (by exact_mod_cast (mul_eq_zero.1 hn).resolve_right ten)
  · have low := le_div_scale h0
    have exponent : ((0 : ℕ) : ℤ) - d.fraction.length = -d.fraction.length := by omega
    rw [Digits.value, exponent] at finite
    have high := belowOverflow_of_isFinite_scaled (hn ▸ low) finite
    rw [hn] at high
    exact .inr ⟨by rwa [abs_of_nonneg (by positivity)], high⟩

/-- **A decimal with at most ten places keeps its value** when it is read, shown and read again. -/
theorem value_reread {d : Digits} (h : d.fraction.length ≤ places)
    (finite : (d.value 0).isFinite = true) :
    0 ≤ value (d.value 0) ∧
      value ((shownDigits (shownUnits (d.value 0))).value 0) = value (d.value 0) := by
  obtain ⟨n, near⟩ := Digits.exists_isNearest h finite
  exact ⟨near.value_nonneg (by positivity),
    (isNearest_shown _).value_unique (isNearest_shownUnits near)⟩

/-! ## Magnitudes that are read from what is shown -/

/-- Whether a double is finite, and its magnitude is read from what is shown of it. -/
def Restored (x : Float) : Prop :=
  x.isFinite = true ∧ value ((shownDigits (shownUnits x)).value 0) = |value x|

theorem Restored.neg {x : Float} (h : Restored x) : Restored (-x) := by
  refine ⟨by rw [isFinite_neg, h.1], ?_⟩
  rw [shownUnits_neg, value_neg, abs_neg, h.2]

/-- Where no unit of the last place is shown, zero is read. -/
theorem value_of_shownUnits_eq_zero {x : Float} (h : shownUnits x = 0) :
    value ((shownDigits (shownUnits x)).value 0) = 0 := by
  have near := isNearest_shown x
  rw [h, Nat.cast_zero, zero_div] at near
  rw [h]
  exact (near.isExact (isExact_zero .positive)).value_eq

theorem restored_zero : Restored 0 := by
  have hzero : value 0 = 0 := (isExact_zero .positive).value_eq
  have none_shown : shownUnits 0 = 0 := by
    rw [shownUnits_eq_iff, hzero]
    norm_num
  refine ⟨(isExact_zero .positive).isFinite, ?_⟩
  rw [value_of_shownUnits_eq_zero none_shown, hzero, abs_zero]

/-- The value of a decimal with at most ten places is read from what is shown of it. -/
theorem IsShort.restored {run : List Char} {x : Float} (h : IsShort run)
    (hx : read? run = some x) : Restored x ∧ 0 ≤ value x := by
  obtain ⟨d, hd, short, finite⟩ := h
  obtain ⟨e, he, rfl⟩ := read?_eq_some_iff.1 hx
  obtain rfl := hd.unique he
  obtain ⟨nonneg, same⟩ := value_reread short finite
  exact ⟨⟨finite, by rw [same, abs_of_nonneg nonneg]⟩, nonneg⟩

end Reckoner.Decimal
