import Reckoner.Decimal.Literal
import Reckoner.Proofs.Double.Arithmetic
import Reckoner.Proofs.Double.Comparison
import Reckoner.Proofs.Double.Overflow

/-!
# Scaling by powers of ten

A whole number times a power of ten is rounded once: `scaled` gives the nearest double, where the
number is zero or in the range of normal doubles (`isNearest_scaled`). A short number is scaled by a
power that is a double itself (`isExact_powerOfTen`), any other one with all its digits. What does
not fit into a double is not made finite (`belowOverflow_of_isFinite_scaled`).
-/

namespace Reckoner.Decimal

open Double Float.Model Float.Model.UnpackedFloat

/-! ## Short numbers -/

/-- Powers of ten up to `10 ^ 22` are doubles. -/
theorem isExact_powerOfTen {k : ℕ} (hk : k < Float.exactlyRepresentablePowersOfTen.size) :
    IsExact Float.exactlyRepresentablePowersOfTen[k] (10 ^ k : ℕ) := by
  have table : ∀ k (hk : k < Float.exactlyRepresentablePowersOfTen.size),
      Float.exactlyRepresentablePowersOfTen[k] =
        Double.pack (normalize .binary64 (10 ^ k : ℕ) 0 .positive) ∧ k ≤ 22 := by
    decide +kernel
  obtain ⟨entry, small⟩ := table k hk
  have one : (1 : ℚ) ≤ (10 ^ k : ℕ) := by exact_mod_cast Nat.one_le_pow k 10 (by decide)
  have range : InRange (10 ^ k : ℕ) := by
    have low : (2 : ℚ) ^ (-1022 : ℤ) ≤ 2 ^ (0 : ℤ) := zpow_le_zpow_right₀ one_le_two (by omega)
    have high : (2 : ℚ) ^ (88 : ℤ) ≤ 2 ^ (1023 : ℤ) := zpow_le_zpow_right₀ one_le_two (by omega)
    have bound : ((10 ^ k : ℕ) : ℚ) < 2 ^ (88 : ℤ) := by
      have : 10 ^ k ≤ 10 ^ 22 := Nat.pow_le_pow_right (by decide) small
      exact_mod_cast this.trans_lt (by decide)
    rw [zpow_zero] at low
    exact inRange_of_lt (by rw [Nat.abs_cast]; exact low.trans one)
      (by rw [Nat.abs_cast]; exact bound.trans_le high)
  -- ten is five times two, and the powers of five are short
  have five : |((5 ^ k : ℕ) : ℤ)| < 2 ^ 53 := by
    have : 5 ^ k ≤ 5 ^ 22 := Nat.pow_le_pow_right (by decide) small
    rw [Nat.abs_cast]
    exact_mod_cast this.trans_lt (by decide)
  obtain ⟨y, hy⟩ := exists_isExact_units five (t := k) (by omega) (by omega)
  have ten : (((5 ^ k : ℕ) : ℤ) : ℚ) * 2 ^ (k : ℤ) = (10 ^ k : ℕ) := by
    rw [zpow_natCast, show (10 : ℕ) = 5 * 2 from rfl, mul_pow]
    push_cast
    rfl
  have near : IsNearest Float.exactlyRepresentablePowersOfTen[k] (10 ^ k : ℕ) := by
    have h := isNearest_normalize (n := (10 ^ k : ℕ)) (e := 0) (.inr (by simpa using range))
      .positive
    rw [entry]
    simpa using h
  exact near.isExact (ten ▸ hy)

/-! ## Long numbers -/

/-- A number in the range of normal doubles has no power of ten below it. -/
theorem exponent_ge {m : ℕ} (hm : m ≠ 0) {e : ℤ} (h : (2 : ℚ) ^ (-1022 : ℤ) ≤ m * 10 ^ e) :
    ¬e < -(2 ^ 11 + m.log2) := by
  intro he
  have digits : (m : ℚ) < 2 ^ ((m.log2 + 1 : ℕ) : ℤ) := by
    rw [zpow_natCast]
    exact_mod_cast ((Nat.log2_eq_iff hm).1 rfl).2
  have ten : (10 : ℚ) ^ e ≤ 2 ^ e := by
    have powers : (2 : ℚ) ^ (-e) ≤ 10 ^ (-e) :=
      zpow_le_zpow_left₀ (by omega) (by norm_num) (by norm_num)
    have inverse := inv_anti₀ (by positivity) powers
    rwa [← zpow_neg, ← zpow_neg, neg_neg] at inverse
  refine absurd h (not_le.2 ?_)
  calc (m : ℚ) * 10 ^ e ≤ m * 2 ^ e := mul_le_mul_of_nonneg_left ten (Nat.cast_nonneg m)
    _ < 2 ^ ((m.log2 + 1 : ℕ) : ℤ) * 2 ^ e := mul_lt_mul_of_pos_right digits (by positivity)
    _ = 2 ^ ((m.log2 + 1 : ℕ) + e) := (zpow_add₀ two_ne_zero _ _).symm
    _ ≤ 2 ^ (-1022 : ℤ) := zpow_le_zpow_right₀ one_le_two (by omega)

/-- A number in the range of normal doubles has no power of ten beyond it. -/
theorem exponent_bounds {m : ℕ} (hm : m ≠ 0) {e : ℤ} (h : InRange (m * 10 ^ e)) :
    ¬2 ^ 11 < e ∧ ¬e < -(2 ^ 11 + m.log2) := by
  obtain ⟨hlow, hhigh⟩ := h
  rw [abs_of_nonneg (by positivity)] at hlow hhigh
  refine ⟨fun he => ?_, exponent_ge hm hlow⟩
  have one : (1 : ℚ) ≤ m := by exact_mod_cast Nat.one_le_iff_ne_zero.2 hm
  refine absurd hhigh (not_lt.2 ?_)
  calc (2 : ℚ) ^ (1024 : ℤ) - 2 ^ (970 : ℤ) ≤ 2 ^ (1024 : ℤ) := sub_le_self _ (by positivity)
    _ ≤ 2 ^ e := zpow_le_zpow_right₀ one_le_two (by omega)
    _ ≤ 10 ^ e := zpow_le_zpow_left₀ (by omega) (by norm_num) (by norm_num)
    _ ≤ m * 10 ^ e := le_mul_of_one_le_left (by positivity) one

theorem partsValue_powerOfTen {n : ℕ} {hn : 0 < 10 ^ n} :
    partsValue (.finite .positive (10 ^ n) 0 hn) = 10 ^ (n : ℤ) := by
  rw [partsValue_positive, zpow_zero, mul_one, zpow_natCast, Nat.cast_pow, Nat.cast_ofNat]

/-- A number with enough digits for any product. -/
theorem partsValue_shifted {m : ℕ} {hm : 0 < m <<< 53} :
    partsValue (.finite .positive (m <<< 53) (-53) hm) = m := by
  have shifted := shiftLeft_value m 53 0
  rw [partsValue_positive]
  rwa [zpow_zero, mul_one] at shifted

theorem digits_shifted {m n : ℕ} (hm : 0 < m <<< 53) (hn : 0 < 10 ^ n) :
    (-53 : ℤ) + (0 : ℤ) ≤ totalExponent (m <<< 53 * 10 ^ n) (-53 + 0) - 53 := by
  have hm' : m ≠ 0 := by
    rintro rfl
    exact absurd hm (by simp)
  have hlog := log2_add_le_log2_mul hm.ne' hn.ne'
  rw [log2_shiftLeft hm'] at hlog
  rw [totalExponent_eq rfl]
  omega

/-- A number with enough digits is multiplied with a power of ten. -/
theorem isNearest_mul_powerOfTen {m n : ℕ} {hm : 0 < m <<< 53} {hn : 0 < 10 ^ n}
    (h : InRange (m * 10 ^ (n : ℤ))) :
    IsNearest (Double.pack (.mul .binary64 (.finite .positive (m <<< 53) (-53) hm)
      (.finite .positive (10 ^ n) 0 hn))) (m * 10 ^ (n : ℤ)) := by
  have near := @isNearest_mul_parts .positive .positive _ _ _ _ hm hn (digits_shifted hm hn)
  rw [partsValue_shifted, partsValue_powerOfTen] at near
  exact near h

/-- A number is divided by a power of ten. -/
theorem isNearest_div_powerOfTen {m n : ℕ} {hm : 0 < m} {hn : 0 < 10 ^ n}
    (h : InRange (m * 10 ^ (-n : ℤ))) :
    IsNearest (Double.pack (.div .binary64 (.finite .positive m 0 hm)
      (.finite .positive (10 ^ n) 0 hn))) (m * 10 ^ (-n : ℤ)) := by
  have near := @isNearest_div_parts .positive .positive m (10 ^ n) 0 0 hm hn
  rw [partsValue_powerOfTen, partsValue_positive, zpow_zero, mul_one, div_eq_mul_inv,
    ← zpow_neg] at near
  exact near h

/-- **All digits of a number are rounded at once.** -/
theorem isNearest_ofScientific_parts {m : ℕ} {e : ℤ} (h : m = 0 ∨ InRange (m * 10 ^ e)) :
    IsNearest (Double.pack (UnpackedFloat.ofScientific .binary64 m e)) (m * 10 ^ e) := by
  unfold UnpackedFloat.ofScientific
  by_cases hm : m = 0
  · rw [dif_pos hm, hm, Nat.cast_zero, zero_mul]
    exact (isExact_zero .positive).isNearest
  have range := h.resolve_left hm
  obtain ⟨high, low⟩ := exponent_bounds hm range
  rw [dif_neg hm, if_neg high, if_neg low]
  by_cases he : 0 ≤ e
  · obtain ⟨n, rfl⟩ := Int.eq_ofNat_of_zero_le he
    rw [if_pos he]
    exact isNearest_mul_powerOfTen range
  · obtain ⟨n, rfl⟩ : ∃ n : ℕ, e = -n := ⟨(-e).toNat, by omega⟩
    rw [if_neg he]
    have power : (- -(n : ℤ)).toNat = n := by omega
    simp only [power]
    exact isNearest_div_powerOfTen range

/-! ## All numbers -/

/-- The exponent with its sign. -/
def signedExponent (negative : Bool) (k : ℕ) : ℤ := if negative = true then -k else k

theorem signedExponent_eq (negative : Bool) (k : ℕ) :
    (if negative = true then Int.negOfNat k else Int.ofNat k) = signedExponent negative k := by
  cases negative <;> simp [signedExponent, Int.negOfNat_eq]

/-- The exact product or quotient of a short number and a power of ten. -/
theorem value_short {m k : ℕ} {x p : Float} (hx : IsExact x (m : ℤ)) (hp : IsExact p (10 ^ k : ℕ))
    (negative : Bool) :
    (if negative = true then value x / value p else value x * value p) =
      m * 10 ^ signedExponent negative k := by
  rw [hx.value_eq, hp.value_eq]
  cases negative <;> simp [signedExponent, div_eq_mul_inv]

theorem value_ne_zero_of_powerOfTen {k : ℕ} {p : Float} (hp : IsExact p (10 ^ k : ℕ)) :
    value p ≠ 0 := by
  rw [hp.value_eq]
  positivity

theorem isNearest_short {m k : ℕ} {x p : Float} (hx : IsExact x (m : ℤ))
    (hp : IsExact p (10 ^ k : ℕ)) {negative : Bool}
    (h : m = 0 ∨ InRange (m * 10 ^ signedExponent negative k)) :
    IsNearest (if negative = true then x / p else x * p) (m * 10 ^ signedExponent negative k) := by
  have range : (m : ℚ) * 10 ^ signedExponent negative k = 0 ∨
      InRange (m * 10 ^ signedExponent negative k) := h.imp_left fun hm => by
    rw [hm, Nat.cast_zero, zero_mul]
  rw [← value_short hx hp] at range ⊢
  cases negative with
  | false => exact isNearest_mul hx.isFinite hp.isFinite range
  | true => exact isNearest_div hx.isFinite hp.isFinite (value_ne_zero_of_powerOfTen hp) range

theorem isNearest_ofScientific {m k : ℕ} (negative : Bool)
    (h : m = 0 ∨ InRange (m * 10 ^ signedExponent negative k)) :
    IsNearest (Float.ofScientific m negative k) (m * 10 ^ signedExponent negative k) := by
  unfold Float.ofScientific
  split
  · rename_i short
    exact isNearest_short (isExact_toFloat short.1) (isExact_powerOfTen _) h
  · rw [← signedExponent_eq] at h ⊢
    exact isNearest_ofScientific_parts h

/-- **A number times a power of ten is rounded to the nearest double.** -/
theorem isNearest_scaled {m : ℕ} {e : ℤ} (h : m = 0 ∨ InRange (m * 10 ^ e)) :
    IsNearest (scaled m e) (m * 10 ^ e) := by
  cases e with
  | ofNat k => exact isNearest_ofScientific false h
  | negSucc k => exact isNearest_ofScientific (k := k + 1) true h

/-- **A literal is read as the double nearest to it.** -/
theorem Digits.isNearest_value {d : Digits}
    (h : d.units = 0 ∨ InRange (d.units * 10 ^ (-d.fraction.length : ℤ))) :
    IsNearest (d.value 0) (d.units * 10 ^ (-d.fraction.length : ℤ)) := by
  have exponent : ((0 : ℕ) : ℤ) - d.fraction.length = -d.fraction.length := by omega
  rw [Digits.value, exponent]
  exact isNearest_scaled h

/-! ## Overflow -/

theorem isRounded_ofScientific_parts {m : ℕ} {e : ℤ} (hm : m ≠ 0)
    (low : (2 : ℚ) ^ (-1022 : ℤ) ≤ m * 10 ^ e) (high : ¬2 ^ 11 < e) :
    IsRounded (Double.pack (UnpackedFloat.ofScientific .binary64 m e)) (m * 10 ^ e) := by
  unfold UnpackedFloat.ofScientific
  rw [dif_neg hm, if_neg high, if_neg (exponent_ge hm low)]
  by_cases he : 0 ≤ e
  · obtain ⟨n, rfl⟩ := Int.eq_ofNat_of_zero_le he
    have shifted : 0 < m <<< 53 := by
      rw [Nat.shiftLeft_eq]
      exact Nat.mul_pos (Nat.pos_of_ne_zero hm) (Nat.two_pow_pos 53)
    have ten : 0 < 10 ^ n := by positivity
    have rounded := @isRounded_mul_parts .positive .positive _ _ _ _ shifted ten
      (le_max_of_le_left (digits_shifted shifted ten))
    rw [partsValue_shifted, partsValue_powerOfTen] at rounded
    rw [if_pos he]
    exact rounded
  · obtain ⟨n, rfl⟩ : ∃ n : ℕ, e = -n := ⟨(-e).toNat, by omega⟩
    have power : (- -(n : ℤ)).toNat = n := by omega
    have ten : 0 < 10 ^ n := by positivity
    have rounded := @isRounded_div_parts .positive .positive m (10 ^ n) 0 0 (by omega) ten
    rw [partsValue_powerOfTen, partsValue_positive, zpow_zero, mul_one, div_eq_mul_inv,
      ← zpow_neg] at rounded
    rw [if_neg he]
    simp only [power]
    exact rounded

/-- A great power of ten gives an infinity. -/
theorem isFinite_ofScientific_parts {m : ℕ} (hm : m ≠ 0) {e : ℤ} (high : 2 ^ 11 < e) :
    (Double.pack (UnpackedFloat.ofScientific .binary64 m e)).isFinite = false := by
  unfold UnpackedFloat.ofScientific
  rw [dif_neg hm, if_pos high, isFinite_eq, unpack_pack (by trivial)]
  rfl

theorem isRounded_short {m k : ℕ} {x p : Float} (hx : IsExact x (m : ℤ))
    (hp : IsExact p (10 ^ k : ℕ)) (negative : Bool) :
    IsRounded (if negative = true then x / p else x * p)
      (m * 10 ^ signedExponent negative k) := by
  rw [← value_short hx hp]
  cases negative with
  | false => exact isRounded_mul hx.isFinite hp.isFinite
  | true => exact isRounded_div hx.isFinite hp.isFinite (value_ne_zero_of_powerOfTen hp)

theorem belowOverflow_of_isFinite_ofScientific {m k : ℕ} {negative : Bool}
    (low : (2 : ℚ) ^ (-1022 : ℤ) ≤ m * 10 ^ signedExponent negative k)
    (h : (Float.ofScientific m negative k).isFinite = true) :
    BelowOverflow (m * 10 ^ signedExponent negative k) := by
  have hm : m ≠ 0 := by
    rintro rfl
    rw [Nat.cast_zero, zero_mul] at low
    exact absurd low (not_le.2 (by positivity))
  unfold Float.ofScientific at h
  split at h
  · rename_i short
    exact (isRounded_short (isExact_toFloat short.1) (isExact_powerOfTen _) _).isFinite_iff.1 h
  · by_cases high : 2 ^ 11 < signedExponent negative k
    · have infinite := isFinite_ofScientific_parts hm high
      rw [← signedExponent_eq] at infinite
      exact absurd (h.symm.trans infinite) (by decide)
    · refine (isRounded_ofScientific_parts hm low high).isFinite_iff.1 ?_
      rw [← signedExponent_eq]
      exact h

/-- **A number that is scaled to a finite double fits into it.** -/
theorem belowOverflow_of_isFinite_scaled {m : ℕ} {e : ℤ}
    (low : (2 : ℚ) ^ (-1022 : ℤ) ≤ m * 10 ^ e) (h : (scaled m e).isFinite = true) :
    BelowOverflow (m * 10 ^ e) := by
  cases e with
  | ofNat k => exact @belowOverflow_of_isFinite_ofScientific m k false low h
  | negSucc k => exact @belowOverflow_of_isFinite_ofScientific m (k + 1) true low h

end Reckoner.Decimal
