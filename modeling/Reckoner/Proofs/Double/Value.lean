import Reckoner.Proofs.Double.Unpacked

/-!
# Exact values of doubles

A finite double stands for a rational number (`value`). A double is nearest to a rational if no
finite double comes nearer, and if its mantissa is even where another one comes as near
(`IsNearest`); all this is said of values, so the two zeros count as one. Whatever is nearest to a
number that some double has is exact (`IsNearest.isExact`). In units of a power of two, a double
is a whole number or smaller than `2 ^ 52` (`exists_value_eq_or_lt`), so what is nearest among the
whole numbers of at least that size is nearest among all doubles (`isNearest_of_units`).
-/

namespace Reckoner.Double

open Float.Model Float.Model.UnpackedFloat

/-- The exact value of the parts of a number, zero if they are none. -/
def partsValue : UnpackedFloat → ℚ
  | .finite s m e _ => s.apply m * 2 ^ e
  | _ => 0

theorem partsValue_zero (s : Sign) : partsValue (.zero s) = 0 := rfl

/-- The exact value of a finite double. -/
def value (x : Float) : ℚ := partsValue (unpack x)

/-- The digits of a double. -/
def mantissa (x : Float) : ℕ :=
  match unpack x with
  | .finite _ m _ _ => m
  | _ => 0

/-- A finite double with the value `q`. -/
structure IsExact (x : Float) (q : ℚ) : Prop where
  isFinite : x.isFinite = true
  value_eq : value x = q

/-- The double nearest to `q`; where two are, the one with the even mantissa. -/
structure IsNearest (x : Float) (q : ℚ) : Prop where
  isFinite : x.isFinite = true
  le : ∀ y : Float, y.isFinite = true → |value x - q| ≤ |value y - q|
  even : ∀ y : Float, y.isFinite = true → value y ≠ value x → |value x - q| = |value y - q| →
    Even (mantissa x)

theorem isFinite_eq (x : Float) : x.isFinite = (unpack x).isFinite := rfl

/-- What is nearest to the value of a double has this value. -/
theorem IsNearest.isExact {x y : Float} {q : ℚ} (h : IsNearest x q) (hy : IsExact y q) :
    IsExact x q := by
  have hle := h.le y hy.isFinite
  rw [hy.value_eq, sub_self, abs_zero] at hle
  exact ⟨h.isFinite, sub_eq_zero.1 (abs_nonpos_iff.1 hle)⟩

theorem IsExact.isNearest {x : Float} {q : ℚ} (h : IsExact x q) : IsNearest x q := by
  refine ⟨h.isFinite, fun y _ => ?_, fun y _ hne heq => ?_⟩
  · rw [h.value_eq, sub_self, abs_zero]
    exact abs_nonneg _
  · rw [h.value_eq, sub_self, abs_zero] at heq
    exact absurd (sub_eq_zero.1 (abs_eq_zero.1 heq.symm)) (h.value_eq ▸ hne)

theorem isExact_pack {u : UnpackedFloat} (hu : Canonical u) (hfin : u.isFinite = true) :
    IsExact (pack u) (partsValue u) :=
  ⟨by rw [isFinite_eq, unpack_pack hu, hfin], by rw [value, unpack_pack hu]⟩

/-! ## Changes of sign -/

theorem partsValue_neg (u : UnpackedFloat) : partsValue u.neg = -partsValue u := by
  cases u with
  | finite s m e hm =>
    simp only [UnpackedFloat.neg, partsValue, apply_neg]
    push_cast
    ring
  | _ => exact neg_zero.symm

theorem value_neg (x : Float) : value (-x) = -value x := by
  rw [value, unpack_neg, partsValue_neg, value]

theorem isFinite_neg (x : Float) : (-x).isFinite = x.isFinite := by
  rw [isFinite_eq, unpack_neg, isFinite_eq]
  cases unpack x <;> rfl

theorem mantissa_neg (x : Float) : mantissa (-x) = mantissa x := by
  rw [mantissa, unpack_neg, mantissa]
  cases unpack x <;> rfl

theorem IsExact.neg {x : Float} {q : ℚ} (h : IsExact x q) : IsExact (-x) (-q) :=
  ⟨by rw [isFinite_neg, h.isFinite], by rw [value_neg, h.value_eq]⟩

theorem IsNearest.neg {x : Float} {q : ℚ} (h : IsNearest x q) : IsNearest (-x) (-q) := by
  have flip (y : Float) : |value (-y) - -q| = |value y - q| := by
    rw [value_neg, ← abs_neg]
    congr 1
    ring
  refine ⟨by rw [isFinite_neg, h.isFinite], fun y hy => ?_, fun y hy hne heq => ?_⟩
  · have hle := h.le (-y) (by rw [isFinite_neg, hy])
    rw [flip, show |value y - -q| = |value (-y) - q| by rw [value_neg, ← abs_neg]; congr 1; ring]
    exact hle
  · rw [mantissa_neg]
    refine h.even (-y) (by rw [isFinite_neg, hy]) ?_ ?_
    · rw [value_neg] at hne ⊢
      exact fun h' => hne (by rw [← h', neg_neg])
    · rw [← flip x, heq, value_neg, ← abs_neg]
      congr 1
      ring

/-! ## Units of a power of two -/

theorem abs_partsValue {s : Sign} {m : ℕ} {e : ℤ} {hm : 0 < m} :
    |partsValue (.finite s m e hm)| = m * 2 ^ e := by
  have hpos : (0 : ℚ) ≤ m * 2 ^ e := by positivity
  cases s
  · simp only [partsValue, Sign.apply, Int.cast_neg, Int.cast_natCast, neg_mul, abs_neg]
    exact abs_of_nonneg hpos
  · simp only [partsValue, Sign.apply, Int.cast_natCast]
    exact abs_of_nonneg hpos

/-- In units of a power of two, a double is a whole number or small. -/
theorem exists_value_eq_or_lt (x : Float) (t : ℤ) :
    (∃ k : ℤ, value x = k * 2 ^ t) ∨ |value x| < 2 ^ 52 * 2 ^ t := by
  have hx := canonical_unpack x
  unfold value
  generalize unpack x = u at hx
  cases u with
  | finite s m e hm =>
    by_cases hte : t ≤ e
    · refine .inl ⟨s.apply m * 2 ^ (e - t).toNat, ?_⟩
      have split : (2 : ℚ) ^ e = 2 ^ (e - t).toNat * 2 ^ t := by
        rw [← zpow_natCast, ← zpow_add₀ two_ne_zero]
        congr 1
        omega
      rw [partsValue, split]
      push_cast
      ring
    · right
      have hlt : (m : ℚ) < 2 ^ 53 := by exact_mod_cast hx.1
      have hle : (2 : ℚ) ^ e ≤ 2 ^ (t - 1) := zpow_le_zpow_right₀ one_le_two (by omega)
      have hpos : (0 : ℚ) < 2 ^ e := by positivity
      have half : (2 : ℚ) ^ t = 2 * 2 ^ (t - 1) := by
        rw [← zpow_one_add₀ two_ne_zero]
        congr 1
        ring
      rw [abs_partsValue, half]
      nlinarith
  | _ =>
    refine .inl ⟨0, ?_⟩
    simp [partsValue]

theorem abs_sub_le_of_half {r k : ℤ} {y : ℚ} (half : |r - y| ≤ 1 / 2) (hk : k ≠ r) :
    1 / 2 ≤ |k - y| := by
  have one : (1 : ℚ) ≤ |(k : ℚ) - r| := by
    exact_mod_cast Int.one_le_abs (sub_ne_zero.2 hk)
  have triangle : |(k : ℚ) - r| ≤ |k - y| + |r - y| := by
    rw [abs_sub_comm (r : ℚ) y]
    exact abs_sub_le _ _ _
  linarith

/-- What is nearest among the whole numbers of a unit is nearest among all doubles. -/
theorem isNearest_of_units {x : Float} (hx : x.isFinite = true) {t r : ℤ} {y : ℚ}
    (hv : value x = r * 2 ^ t) (hy : 2 ^ 52 ≤ y) (half : |r - y| ≤ 1 / 2)
    (even : |r - y| = 1 / 2 → Even (mantissa x)) : IsNearest x (y * 2 ^ t) := by
  have unit : (0 : ℚ) < 2 ^ t := by positivity
  have scale (a : ℚ) : |a * 2 ^ t - y * 2 ^ t| = |a - y| * 2 ^ t := by
    rw [← sub_mul, abs_mul, abs_of_pos unit]
  have small {z : Float} (hz : |value z| < 2 ^ 52 * 2 ^ t) :
      |r - y| * 2 ^ t < |value z - y * 2 ^ t| := by
    have least : |r - y| ≤ y - 2 ^ 52 := by
      by_cases hr : r = 2 ^ 52
      · rw [hr, abs_sub_comm, abs_of_nonneg (by push_cast; linarith)]
        push_cast
        exact le_refl _
      · have h := abs_sub_le_of_half half (Ne.symm hr)
        rw [abs_sub_comm, abs_of_nonneg (by push_cast; linarith)] at h
        push_cast at h
        linarith
    have far : y * 2 ^ t - |value z| ≤ |value z - y * 2 ^ t| := by
      rw [abs_sub_comm]
      have := le_abs_self (value z)
      have := le_abs_self (y * 2 ^ t - value z)
      linarith
    have := mul_le_mul_of_nonneg_right least unit.le
    linarith [sub_mul y (2 ^ 52) (2 ^ t)]
  refine ⟨hx, fun z hz => ?_, fun z hz hne heq => ?_⟩
  · rw [hv, scale]
    obtain ⟨k, hk⟩ | hz := exists_value_eq_or_lt z t
    · rw [hk, scale]
      refine mul_le_mul_of_nonneg_right ?_ unit.le
      by_cases hkr : k = r
      · rw [hkr]
      · exact half.trans (abs_sub_le_of_half half hkr)
    · exact (small hz).le
  · rw [hv, scale] at heq
    obtain ⟨k, hk⟩ | hz := exists_value_eq_or_lt z t
    · rw [hk, scale] at heq
      have hkr : k ≠ r := by
        rintro rfl
        exact hne (hk.trans hv.symm)
      have heq := mul_right_cancel₀ unit.ne' heq
      exact even (le_antisymm half (heq ▸ abs_sub_le_of_half half hkr))
    · exact absurd heq (small hz).ne

end Reckoner.Double
