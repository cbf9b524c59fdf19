import Reckoner.Proofs.Double.Comparison
import Reckoner.Proofs.Double.Rounding

/-!
# The nearest double

No two doubles of different value are nearest to the same number (`IsNearest.value_unique`): they
would be as near, on either side of it, and both have an even mantissa. But between two doubles with
even mantissas there is the one behind the smaller one (`exists_between`), and it is nearer. Doubles
of the same value are those that are numerically equal (`beq_iff`).
-/

namespace Reckoner.Double

open Float.Model Float.Model.UnpackedFloat

/-- Finite doubles are numerically equal if they have the same value. -/
theorem beq_iff {x y : Float} (hx : x.isFinite = true) (hy : y.isFinite = true) :
    (x == y) = true ↔ value x = value y := by
  have beq_eq : (x == y) = ((unpack x).compare (unpack y) == some .eq) := rfl
  rw [beq_eq, compare_parts (canonical_unpack x) (canonical_unpack y) hx hy, beq_iff_eq,
    Option.some.injEq, compare_eq_iff_eq]
  rfl

/-- The magnitude of a finite double, in units of its last bit. -/
theorem exists_abs_value_eq {x : Float} (hx : x.isFinite = true) :
    ∃ e : ℤ, |value x| = mantissa x * 2 ^ e ∧ mantissa x < 2 ^ 53 ∧ -1074 ≤ e ∧ e < 972 ∧
      (2 ^ 52 ≤ mantissa x ∨ e = -1074) := by
  have cx := canonical_unpack x
  rw [isFinite_eq] at hx
  unfold value mantissa
  generalize unpack x = u at *
  cases u with
  | notANumber | infinity _ => simp [UnpackedFloat.isFinite] at hx
  | zero s =>
    refine ⟨-1074, ?_, Nat.two_pow_pos 53, le_rfl, by decide, .inr rfl⟩
    rw [partsValue_zero, abs_zero]
    exact (zero_mul _).symm
  | finite s m e hm => exact ⟨e, abs_partsValue, cx⟩

/-- A greater number is a whole number of the units of a smaller one. -/
theorem exists_units_of_lt {m n : ℕ} {e f : ℤ} (hn : n < 2 ^ 53) (he : 2 ^ 52 ≤ m ∨ e = -1074)
    (hf : -1074 ≤ f) (h : (m : ℚ) * 2 ^ e < n * 2 ^ f) :
    ∃ k : ℕ, f = e + k ∧ m < n * 2 ^ k := by
  obtain hfe | hef := lt_or_ge f e
  · -- a mantissa at a smaller exponent does not reach a full one
    have full : (2 : ℚ) ^ 52 ≤ m := by exact_mod_cast he.resolve_right (by omega)
    have short : (n : ℚ) ≤ 2 ^ 53 := by exact_mod_cast hn.le
    have double : (2 : ℚ) * 2 ^ f ≤ 2 ^ e := by
      rw [← zpow_one_add₀ two_ne_zero]
      exact zpow_le_zpow_right₀ one_le_two (by omega)
    refine absurd h (not_lt.2 ?_)
    calc (n : ℚ) * 2 ^ f ≤ 2 ^ 53 * 2 ^ f := mul_le_mul_of_nonneg_right short (by positivity)
      _ = 2 ^ 52 * (2 * 2 ^ f) := by ring
      _ ≤ m * 2 ^ e := mul_le_mul full double (by positivity) (by positivity)
  · obtain ⟨k, hk⟩ := Int.le.dest hef
    refine ⟨k, hk.symm, ?_⟩
    have unit : (0 : ℚ) < 2 ^ e := by positivity
    rw [← hk, zpow_add₀ two_ne_zero, zpow_natCast, mul_left_comm, mul_comm] at h
    exact_mod_cast lt_of_mul_lt_mul_left h unit.le

/-- Between two doubles with even mantissas there is another one. -/
theorem exists_between {x y : Float} (hx : x.isFinite = true) (hy : y.isFinite = true)
    (ex : Even (mantissa x)) (ey : Even (mantissa y)) (nonneg : 0 ≤ value x)
    (hlt : value x < value y) :
    ∃ w : Float, w.isFinite = true ∧ value x < value w ∧ value w < value y := by
  obtain ⟨e, vx, mx, hemin, hemax, nx⟩ := exists_abs_value_eq hx
  obtain ⟨f, vy, my, hfmin, -, -⟩ := exists_abs_value_eq hy
  rw [abs_of_nonneg nonneg] at vx
  rw [abs_of_pos (nonneg.trans_lt hlt)] at vy
  generalize mantissa x = m at *
  generalize mantissa y = n at *
  have unit : (0 : ℚ) < 2 ^ e := by positivity
  obtain ⟨k, rfl, hmn⟩ := exists_units_of_lt my nx hfmin (vx ▸ vy ▸ hlt)
  have even : Even (n * 2 ^ k) := ey.mul_right _
  have behind : m + 1 < n * 2 ^ k := by
    refine lt_of_le_of_ne hmn fun heq => ?_
    exact absurd (heq ▸ even) (by simpa [Nat.even_add_one] using ex)
  have canonical : Canonical (.finite .positive (m + 1) e m.succ_pos) := by
    obtain ⟨j, hj⟩ := ex
    exact ⟨by omega, hemin, hemax, by omega⟩
  obtain ⟨finite, next⟩ := isExact_pack canonical rfl
  rw [partsValue_positive] at next
  refine ⟨_, finite, ?_, ?_⟩
  · rw [next, vx]
    push_cast
    linarith
  · have behind : ((m + 1 : ℕ) : ℚ) < n * 2 ^ k := by exact_mod_cast behind
    rw [next, vy, zpow_add₀ two_ne_zero, zpow_natCast, mul_comm ((2 : ℚ) ^ e), ← mul_assoc]
    exact mul_lt_mul_of_pos_right behind unit

variable {x y : Float} {q : ℚ}

/-- No double lies between two that are nearest to the same number. -/
theorem IsNearest.not_between (hx : IsNearest x q) (hy : IsNearest y q) {w : Float}
    (hw : w.isFinite = true) (low : value x < value w) : ¬value w < value y := by
  intro high
  have near := hx.le y hy.isFinite
  have near' := hy.le x hx.isFinite
  have far := hx.le w hw
  have far' := hy.le w hw
  obtain hq | hq := le_total q (value w)
  · rw [abs_of_nonneg (sub_nonneg.2 hq), abs_of_nonneg (by linarith)] at far'
    linarith
  · rw [abs_of_nonpos (sub_nonpos.2 hq), abs_of_nonpos (by linarith)] at far
    linarith

theorem IsNearest.not_value_lt (hx : IsNearest x q) (hy : IsNearest y q) : ¬value x < value y := by
  intro hlt
  have tie : |value x - q| = |value y - q| :=
    le_antisymm (hx.le y hy.isFinite) (hy.le x hx.isFinite)
  have ex := hx.even y hy.isFinite hlt.ne' tie
  have ey := hy.even x hx.isFinite hlt.ne tie.symm
  obtain nonneg | neg := le_or_gt 0 (value x)
  · obtain ⟨w, hw, low, high⟩ := exists_between hx.isFinite hy.isFinite ex ey nonneg hlt
    exact hx.not_between hy hw low high
  obtain pos | nonpos := lt_or_ge 0 (value y)
  · have zero := isExact_zero .positive
    exact hx.not_between hy zero.isFinite (zero.value_eq ▸ neg) (zero.value_eq ▸ pos)
  · obtain ⟨w, hw, low, high⟩ := exists_between hy.neg.isFinite hx.neg.isFinite
      (by rwa [mantissa_neg]) (by rwa [mantissa_neg]) (by rw [value_neg]; linarith)
      (by rw [value_neg, value_neg]; linarith)
    exact hy.neg.not_between hx.neg hw low high

/-- **The nearest double is unique**, up to the sign of zero. -/
theorem IsNearest.value_unique (hx : IsNearest x q) (hy : IsNearest y q) : value x = value y :=
  le_antisymm (not_lt.1 (hy.not_value_lt hx)) (not_lt.1 (hx.not_value_lt hy))

/-- What is nearest to a number that is not negative is not negative. -/
theorem IsNearest.value_nonneg (h : IsNearest x q) (hq : 0 ≤ q) : 0 ≤ value x := by
  have zero := isExact_zero .positive
  have far := h.le _ zero.isFinite
  rw [zero.value_eq, zero_sub, abs_neg, abs_of_nonneg hq] at far
  by_contra neg
  rw [abs_of_neg (by linarith)] at far
  linarith

end Reckoner.Double
