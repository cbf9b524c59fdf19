import Reckoner.Decimal.Places
import Reckoner.Proofs.Decimal.Grammar
import Reckoner.Proofs.Decimal.Scaled

/-!
# Numbers as they are shown

A finite double is shown by its exact value in units of the last place, rounded to a whole number
of them (`shownUnits`, `render_of_isFinite`). Without its sign, what is shown is a decimal with the
value of these units (`isDecimal_renderUnits`, `value_shownDigits`).
-/

namespace Reckoner.Decimal

open Double Float.Model Float.Model.UnpackedFloat

/-! ## Exact values -/

theorem unpack_eq_ofFields (x : Float) :
    unpack x = ofFields (.ofBitVec (@unpackSign .binary64 x.toBits.toBitVec))
      (@unpackExponent .binary64 x.toBits.toBitVec)
      (@unpackMantissa .binary64 x.toBits.toBitVec) := by
  rw [← unpack_packComponents, packComponents_unpackSign_unpackExponent_unpackMantissa]
  rfl

/-- The fields of a word as numbers. -/
theorem fields_toNat (w : UInt64) :
    (@unpackExponent .binary64 w.toBitVec).toNat = w.toNat / 0x10000000000000 % 0x800 ∧
      (@unpackMantissa .binary64 w.toBitVec).toNat = w.toNat % 0x10000000000000 ∧
      (0x8000000000000000 ≤ w.toNat ↔
        Sign.ofBitVec (@unpackSign .binary64 w.toBitVec) = .negative) := by
  have hw := w.toNat_lt
  refine ⟨?_, ?_, ?_⟩
  · change (BitVec.extractLsb 62 52 w.toBitVec).toNat = _
    rw [BitVec.extractLsb_toNat, Nat.shiftRight_eq_div_pow]
    rfl
  · change (BitVec.extractLsb 51 0 w.toBitVec).toNat = _
    rw [BitVec.extractLsb_toNat, Nat.shiftRight_zero]
    rfl
  · have sign : (@unpackSign .binary64 w.toBitVec).toNat = w.toNat / 2 ^ 63 % 2 := by
      change (BitVec.extractLsb 63 63 w.toBitVec).toNat = _
      rw [BitVec.extractLsb_toNat, Nat.shiftRight_eq_div_pow]
      rfl
    have zero : @unpackSign .binary64 w.toBitVec = 0#1 ↔ w.toNat / 2 ^ 63 % 2 = 0 := by
      rw [← sign, ← BitVec.toNat_inj]
      rfl
    unfold Sign.ofBitVec
    split
    · rename_i h
      have := zero.1 h
      exact iff_of_false (by omega) (by simp)
    · rename_i h
      have := mt zero.2 h
      exact iff_of_true (by omega) rfl

theorem partsValue_lt_zero_iff {s : Sign} {m : ℕ} {e : ℤ} {hm : 0 < m} :
    partsValue (.finite s m e hm) < 0 ↔ s = .negative := by
  have pos : (0 : ℚ) < m * 2 ^ e := by positivity
  cases s with
  | positive =>
    rw [partsValue_positive]
    exact iff_of_false (not_lt.2 pos.le) (by simp)
  | negative =>
    rw [partsValue_negative]
    exact iff_of_true (neg_neg_of_pos pos) rfl

/-- **The exact value of a finite double**: its magnitude, and its sign unless it is zero. -/
theorem exists_ofFloat? {x : Float} (hx : x.isFinite = true) :
    ∃ v, Exact.ofFloat? x = some v ∧ (v.mantissa : ℚ) * 2 ^ v.exponent = |value x| ∧
      (value x ≠ 0 → v.negative = decide (value x < 0)) := by
  obtain ⟨exponent, fraction, sign⟩ := fields_toNat x.toBits
  rw [isFinite_eq, unpack_eq_ofFields] at hx
  unfold value Exact.ofFloat?
  dsimp only
  rw [unpack_eq_ofFields, ← exponent, ← fraction]
  have negative := decide_eq_true_iff.trans sign
  generalize decide (0x8000000000000000 ≤ x.toBits.toNat) = b at *
  generalize Sign.ofBitVec (@unpackSign .binary64 x.toBits.toBitVec) = s at *
  generalize @unpackExponent .binary64 x.toBits.toBitVec = e at *
  generalize @unpackMantissa .binary64 x.toBits.toBitVec = m at *
  have infinite : e = -1#_ ↔ e.toNat = 0x7FF := by
    rw [← BitVec.toNat_inj]
    rfl
  have small : e = 0#_ ↔ e.toNat = 0 := by
    rw [← BitVec.toNat_inj]
    rfl
  unfold ofFields at hx ⊢
  by_cases he : e = -1#_
  · rw [if_pos he] at hx
    split at hx <;> cases hx
  rw [if_neg he, if_neg (mt infinite.2 he)]
  by_cases he0 : e = 0#_
  · rw [if_pos he0, if_pos (small.1 he0)]
    by_cases hm : m = 0#_
    · rw [dif_pos hm, hm]
      exact ⟨_, rfl, by simp [partsValue_zero], fun h => absurd rfl h⟩
    · rw [dif_neg hm]
      refine ⟨_, rfl, abs_partsValue.symm, fun _ => ?_⟩
      rw [Bool.eq_iff_iff, negative, decide_eq_true_iff, partsValue_lt_zero_iff]
  · rw [if_neg he0, if_neg (mt small.2 he0)]
    refine ⟨_, rfl, abs_partsValue.symm, fun _ => ?_⟩
    rw [Bool.eq_iff_iff, negative, decide_eq_true_iff, partsValue_lt_zero_iff]

/-! ## Rounding to the last place -/

/-- The units of the last place that a double shows. -/
def shownUnits (x : Float) : ℕ := ⌊|value x| * scale + 1 / 2⌋₊

theorem scale_pos : 0 < scale := by decide

theorem cast_scale : (scale : ℚ) = 10 ^ 10 := by norm_num [scale, places]

theorem shownUnits_eq_iff {x : Float} {n : ℕ} :
    shownUnits x = n ↔ n ≤ |value x| * scale + 1 / 2 ∧ |value x| * scale + 1 / 2 < n + 1 :=
  Nat.floor_eq_iff (by positivity)

theorem Exact.units_eq {x : Float} {v : Exact} (h : (v.mantissa : ℚ) * 2 ^ v.exponent = |value x|) :
    v.units = shownUnits x := by
  refine Eq.symm (shownUnits_eq_iff.2 ?_)
  rw [← h]
  obtain ⟨negative, m, e⟩ := v
  cases e with
  | ofNat q =>
    have whole : (m : ℚ) * 2 ^ Int.ofNat q * scale = (m * 2 ^ q * scale : ℕ) := by
      rw [Int.ofNat_eq_natCast, zpow_natCast]
      push_cast
      rfl
    have units_eq : units ⟨negative, m, Int.ofNat q⟩ = m * 2 ^ q * scale := rfl
    rw [units_eq, whole]
    constructor <;> linarith
  | negSucc q =>
    have power : (2 : ℚ) ^ Int.negSucc q = (2 ^ (q + 1))⁻¹ := zpow_negSucc 2 q
    have hd : 0 < Nat.pow 2 (q + 1) := Nat.two_pow_pos (q + 1)
    obtain ⟨hle, hlt⟩ := roundDiv_bounds (m * scale) hd
    simp only [units, power]
    generalize roundDiv (m * scale) (Nat.pow 2 (q + 1)) = r at *
    have hle : (2 : ℚ) * (r * 2 ^ (q + 1)) ≤ 2 * (m * scale) + 2 ^ (q + 1) := by exact_mod_cast hle
    have hlt : (2 : ℚ) * (m * scale) + 2 ^ (q + 1) < 2 * (r * 2 ^ (q + 1)) + 2 * 2 ^ (q + 1) := by
      exact_mod_cast hlt
    have pos : (0 : ℚ) < 2 ^ (q + 1) := by positivity
    have split : (m : ℚ) * (2 ^ (q + 1))⁻¹ * scale + 1 / 2 =
        (2 * (m * scale) + 2 ^ (q + 1)) / (2 * 2 ^ (q + 1)) := by
      field_simp
    rw [split, le_div_iff₀ (by positivity), div_lt_iff₀ (by positivity)]
    constructor <;> linarith

theorem shownUnits_neg (x : Float) : shownUnits (-x) = shownUnits x := by
  rw [shownUnits, value_neg, abs_neg, shownUnits]

/-- **A finite double is shown by its units of the last place**, and its sign if there are any. -/
theorem render_of_isFinite {x : Float} (hx : x.isFinite = true) :
    render x = renderUnits (decide (value x < 0)) (shownUnits x) := by
  obtain ⟨v, hv, hvalue, hsign⟩ := exists_ofFloat? hx
  have units := Exact.units_eq hvalue
  simp only [render, hv, units]
  by_cases h0 : value x = 0
  · have none_shown : shownUnits x = 0 := by
      rw [shownUnits_eq_iff, h0]
      norm_num
    rw [none_shown]
    simp [renderUnits]
  · rw [hsign h0]

/-- An absolute value is shown by its units alone. -/
theorem render_abs {x : Float} (hx : x.isFinite = true) :
    render x.abs = renderUnits false (shownUnits x) := by
  have magnitude : IsExact x.abs |value x| := IsExact.abs ⟨hx, rfl⟩
  have nonneg : ¬value x.abs < 0 := by
    rw [magnitude.value_eq]
    exact not_lt.2 (abs_nonneg _)
  have units : shownUnits x.abs = shownUnits x := by
    rw [shownUnits, magnitude.value_eq, abs_abs, shownUnits]
  rw [render_of_isFinite magnitude.isFinite, units, decide_eq_false nonneg]

/-! ## The digits that are shown -/

/-- The sign is written where something is shown. -/
theorem renderUnits_negative (n : ℕ) :
    renderUnits true n = if n = 0 then renderUnits false n else '-' :: renderUnits false n := by
  unfold renderUnits
  by_cases h : n = 0
  · rw [if_pos h, h]
    rfl
  · rw [if_neg h]
    simp [h]

theorem exists_dropFinalZeros (text : List Char) :
    ∃ k, text = dropFinalZeros text ++ List.replicate k '0' := by
  have zeros : text.reverse.takeWhile (· = '0') =
      List.replicate (text.reverse.takeWhile (· = '0')).length '0' :=
    List.eq_replicate_iff.2 ⟨rfl, fun c hc => by
      simpa using List.all_eq_true.1 List.all_takeWhile c hc⟩
  refine ⟨(text.reverse.takeWhile (· = '0')).length, ?_⟩
  have split := List.takeWhile_append_dropWhile (p := (decide <| · = '0')) (l := text.reverse)
  rw [zeros] at split
  rw [dropFinalZeros, ← List.reverse_replicate, ← List.reverse_append, split, List.reverse_reverse]

theorem all_isDigit_lastDigits (k n : ℕ) : (lastDigits k n).all Char.isDigit = true := by
  induction k generalizing n with
  | zero => rfl
  | succ k ih =>
    have digit : (Nat.digitChar (n % 10)).isDigit = true := by
      rw [Nat.isDigit_digitChar]
      exact decide_eq_true (Nat.mod_lt n (by decide))
    simp [lastDigits, ih, digit]

/-- All digits before and behind the point are those of the units. -/
theorem ofDigitChars_toDigits_append (n : ℕ) :
    Nat.ofDigitChars 10 (Nat.toDigits 10 (n / scale) ++ lastDigits places (n % scale)) 0 = n := by
  have length : (lastDigits places (n % scale)).length = places := length_lastDigits _ _
  have behind : Nat.ofDigitChars 10 (lastDigits places (n % scale)) 0 = n % scale :=
    (ofDigitChars_lastDigits _ _).trans (Nat.mod_mod n scale)
  rw [Nat.ofDigitChars_append, Nat.ofDigitChars_toDigits (by decide) (by decide),
    Nat.ofDigitChars_eq_ofDigitChars_zero, length, behind]
  exact Nat.div_add_mod n scale

/-- The digits before the point, and the point with the digits behind it if there are any. -/
def Digits.text (d : Digits) : List Char :=
  d.whole ++ if d.fraction = [] then [] else '.' :: d.fraction

theorem Digits.isDecimal_text {d : Digits} (ne_nil : d.whole ≠ [])
    (digits : d.whole.all Char.isDigit = true) (decimals : d.fraction.all Char.isDigit = true) :
    IsDecimal d.text d := by
  obtain ⟨whole, fraction⟩ := d
  unfold text
  by_cases hnil : fraction = []
  · subst hnil
    rw [if_pos rfl, List.append_nil]
    exact .whole ne_nil digits
  · rw [if_neg hnil]
    exact .point (.inl ne_nil) digits decimals

/-- The digits that a number of units of the last place is shown by. -/
def shownDigits (n : ℕ) : Digits :=
  ⟨Nat.toDigits 10 (n / scale), dropFinalZeros (lastDigits places (n % scale))⟩

theorem all_isDigit_whole (n : ℕ) : (shownDigits n).whole.all Char.isDigit = true :=
  List.all_eq_true.2 fun _ hc => Nat.isDigit_of_mem_toDigits (by decide) (by decide) hc

theorem all_isDigit_fraction (n : ℕ) : (shownDigits n).fraction.all Char.isDigit = true := by
  have digits := all_isDigit_lastDigits places (n % scale)
  obtain ⟨k, hk⟩ := exists_dropFinalZeros (lastDigits places (n % scale))
  rw [hk, List.all_append, Bool.and_eq_true] at digits
  exact digits.1

/-- **What is shown is a decimal.** -/
theorem isDecimal_renderUnits (n : ℕ) : IsDecimal (renderUnits false n) (shownDigits n) :=
  Digits.isDecimal_text Nat.toDigits_ne_nil (all_isDigit_whole n) (all_isDigit_fraction n)

/-- What is shown has the value of the units. -/
theorem value_shownDigits (n : ℕ) :
    ((shownDigits n).units : ℚ) * 10 ^ (-(shownDigits n).fraction.length : ℤ) = n / scale := by
  have digits := ofDigitChars_toDigits_append n
  have length := length_lastDigits places (n % scale)
  obtain ⟨k, hk⟩ := exists_dropFinalZeros (lastDigits places (n % scale))
  unfold shownDigits
  generalize dropFinalZeros (lastDigits places (n % scale)) = g at *
  generalize Nat.toDigits 10 (n / scale) = w at *
  rw [hk, List.length_append, List.length_replicate] at length
  rw [hk, ← List.append_assoc, Nat.ofDigitChars_append, Nat.ofDigitChars_replicate_zero] at digits
  have power : (scale : ℚ) = 10 ^ g.length * 10 ^ k := by
    rw [← pow_add, length]
    norm_num [scale, places]
  have digits : (10 : ℚ) ^ k * (Digits.mk w g).units = n := by exact_mod_cast digits
  rw [power, ← digits, zpow_neg, zpow_natCast]
  field_simp

end Reckoner.Decimal
