import Reckoner.Proofs.Double.Value

/-!
# Rounding

A mantissa with a round bit and a sticky bit tells where a number lies between two whole numbers
(`Cuts`). Shifting it halves the number (`Cuts.shiftRight`), and rounding it gives the nearest whole
number, the even one of two (`Cuts.abs_roundedMantissa_sub_le`). So the rounding of unpacked
numbers, which shifts and then rounds, gives the nearest double in the range of normal ones
(`isNearest_roundWithAccuracy`).
-/

namespace Reckoner.Double

open Float.Model Float.Model.UnpackedFloat

/-! ## Round bit and sticky bit -/

/-- The number lies between the mantissa and the next whole number, the round bit says whether it
reaches the middle, and the sticky bit whether it is neither the mantissa nor the middle. -/
structure Cuts (em : ExtendedMantissa) (x : ℚ) : Prop where
  le : em.mantissa ≤ x
  lt : x < em.mantissa + 1
  roundBit : em.roundBit = true ↔ em.mantissa + 1 / 2 ≤ x
  stickyBit : em.stickyBit = true ↔ x ≠ em.mantissa ∧ x ≠ em.mantissa + 1 / 2

/-- The two bits say whether anything lies behind the mantissa. -/
theorem Cuts.bits {em : ExtendedMantissa} {x : ℚ} (h : Cuts em x) :
    (em.roundBit || em.stickyBit) = true ↔ (em.mantissa : ℚ) < x := by
  rw [Bool.or_eq_true, h.roundBit, h.stickyBit]
  constructor
  · rintro (h' | ⟨h', -⟩)
    · linarith
    · exact lt_of_le_of_ne h.le (Ne.symm h')
  · intro hlt
    by_cases hmid : (em.mantissa : ℚ) + 1 / 2 ≤ x
    · exact .inl hmid
    · exact .inr ⟨hlt.ne', fun h' => hmid h'.ge⟩

theorem Cuts.shiftRightOne {em : ExtendedMantissa} {x : ℚ} (h : Cuts em x) :
    Cuts em.shiftRightOne (x / 2) := by
  have hle := h.le
  have hlt := h.lt
  obtain ⟨k, hk | hk⟩ := em.mantissa.even_or_odd'
  · have hdiv : em.mantissa / 2 = k := by omega
    have hmod : em.mantissa % 2 = 0 := by omega
    have hcast : (em.mantissa : ℚ) = 2 * k := by exact_mod_cast hk
    refine ⟨?_, ?_, ?_, ?_⟩ <;> simp only [ExtendedMantissa.shiftRightOne, hdiv]
    · linarith
    · linarith
    · simp only [hmod, bne_self_eq_false, Bool.false_eq_true, false_iff, not_le]
      linarith
    · rw [h.bits]
      constructor
      · exact fun h' => ⟨by linarith, by linarith⟩
      · exact fun h' => lt_of_le_of_ne hle fun heq => h'.1 (by linarith)
  · have hdiv : em.mantissa / 2 = k := by omega
    have hmod : em.mantissa % 2 = 1 := by omega
    have hcast : (em.mantissa : ℚ) = 2 * k + 1 := by exact_mod_cast hk
    refine ⟨?_, ?_, ?_, ?_⟩ <;> simp only [ExtendedMantissa.shiftRightOne, hdiv]
    · linarith
    · linarith
    · simp only [hmod, bne_iff_ne, ne_eq, one_ne_zero, not_false_eq_true, true_iff]
      linarith
    · rw [h.bits]
      constructor
      · exact fun h' => ⟨by linarith, by linarith⟩
      · exact fun h' => lt_of_le_of_ne hle fun heq => h'.2 (by linarith)

theorem Cuts.shiftRight {em : ExtendedMantissa} {x : ℚ} (h : Cuts em x) (n : ℕ) :
    Cuts (em >>> n) (x / 2 ^ n) := by
  change Cuts (n.repeat ExtendedMantissa.shiftRightOne em) _
  induction n with
  | zero => simpa [Nat.repeat] using h
  | succ n ih =>
    rw [Nat.repeat, pow_succ, ← div_div]
    exact ih.shiftRightOne

/-- Rounding gives the nearest whole number. -/
theorem Cuts.abs_roundedMantissa_sub_le {em : ExtendedMantissa} {x : ℚ} (h : Cuts em x) :
    |(em.roundedMantissa : ℚ) - x| ≤ 1 / 2 ∧
      (|(em.roundedMantissa : ℚ) - x| = 1 / 2 → Even em.roundedMantissa) := by
  have near {a b : ℚ} (h₁ : a - b < 1 / 2) (h₂ : b - a < 1 / 2) :
      |a - b| ≤ 1 / 2 ∧ (|a - b| = 1 / 2 → Even em.roundedMantissa) := by
    have hlt : |a - b| < 1 / 2 := abs_lt.2 ⟨by linarith, h₁⟩
    exact ⟨hlt.le, fun h => absurd h hlt.ne⟩
  obtain ⟨m, r, s⟩ := em
  obtain ⟨hle, hlt, hr, hs⟩ := h
  simp only at hle hlt hr hs
  cases r with
  | false =>
    have hmid : x < m + 1 / 2 := by simpa using hr
    cases s with
    | false => exact near (a := (m : ℚ)) (by linarith) (by linarith)
    | true => exact near (a := (m : ℚ)) (by linarith) (by linarith)
  | true =>
    have hmid : (m : ℚ) + 1 / 2 ≤ x := by simpa using hr
    cases s with
    | false =>
      have hx : x = m + 1 / 2 := by
        by_contra hne
        exact absurd (hs.2 ⟨by linarith, hne⟩) (by simp)
      change |((m + m % 2 : ℕ) : ℚ) - x| ≤ 1 / 2 ∧ (_ → Even (m + m % 2))
      obtain ⟨k, hk | hk⟩ := m.even_or_odd'
      · have hmod : m % 2 = 0 := by omega
        rw [hmod, hx, add_zero, abs_sub_comm, abs_of_nonneg (by linarith)]
        exact ⟨by linarith, fun _ => ⟨k, by omega⟩⟩
      · have hmod : m % 2 = 1 := by omega
        rw [hmod, hx]
        push_cast
        rw [abs_of_nonneg (by linarith)]
        exact ⟨by linarith, fun _ => ⟨k + 1, by omega⟩⟩
    | true =>
      have hne := (hs.1 rfl).2
      have hgt : (m : ℚ) + 1 / 2 < x := lt_of_le_of_ne hmid (Ne.symm hne)
      have h := near (a := (m : ℚ) + 1) (b := x) (by linarith) (by linarith)
      have cast : ((m + 1 : ℕ) : ℚ) = m + 1 := by push_cast; rfl
      rw [← cast] at h
      exact h

/-! ## Rounding to a double -/

theorem targetExponent_eq (t : ℤ) : Format.binary64.targetExponent t = max (t - 53) (-1074) := rfl

theorem mantissa_ofMantissaAndAccuracy (m : ℕ) (a : Accuracy) :
    (ExtendedMantissa.ofMantissaAndAccuracy m a).mantissa = m := by
  obtain _ | (_ | _ | _) := a <;> rfl

theorem totalExponent_eq {m : ℕ} {k : ℕ} (hk : m.log2 = k) (e : ℤ) :
    totalExponent m e = k + 1 + e := by rw [totalExponent, hk]

/-- A mantissa of at most 53 bits is not shifted. -/
theorem shiftToTargetExponent_of_lt {r : ℕ} {t : ℤ} (hr : r < 2 ^ 53) (ht : -1074 ≤ t) :
    shiftToTargetExponent .binary64 r t .exact = (.ofMantissaAndAccuracy r .exact, t) := by
  have hlog : r.log2 < 53 := by
    by_cases h : r = 0
    · rw [h]
      decide
    · exact (Nat.log2_lt h).2 hr
  have target : (Format.binary64.targetExponent (totalExponent r t) - t).toNat = 0 := by
    rw [totalExponent_eq rfl, targetExponent_eq]
    omega
  simp only [shiftToTargetExponent, shiftToExponent, target, Nat.cast_zero, add_zero]
  rfl

/-- A mantissa that was rounded up to 54 bits takes one bit less at the next exponent. -/
theorem shiftToTargetExponent_two_pow {t : ℤ} (ht : -1074 ≤ t) :
    shiftToTargetExponent .binary64 (2 ^ 53) t .exact =
      (.ofMantissaAndAccuracy (2 ^ 52) .exact, t + 1) := by
  have hlog : (2 ^ 53 : ℕ).log2 = 53 := Nat.log2_two_pow
  have target : Format.binary64.targetExponent (totalExponent (2 ^ 53) t) - t = 1 := by
    rw [totalExponent_eq hlog, targetExponent_eq]
    omega
  simp only [shiftToTargetExponent, shiftToExponent, target]
  rfl

/-- A mantissa of 53 bits stays one, if it was rounded up at the next exponent. -/
theorem exists_shiftToTargetExponent {r : ℕ} {t : ℤ} (hle : 2 ^ 52 ≤ r) (hge : r ≤ 2 ^ 53)
    (ht : -1074 ≤ t) :
    ∃ (k : ℕ) (e : ℤ), (shiftToTargetExponent .binary64 r t .exact).1.mantissa = k ∧
      (shiftToTargetExponent .binary64 r t .exact).2 = e ∧ (k : ℚ) * 2 ^ e = r * 2 ^ t ∧
        2 ^ 52 ≤ k ∧ k < 2 ^ 53 ∧ t ≤ e ∧ e ≤ t + 1 ∧ (Even r → Even k) := by
  obtain hlt | rfl := Nat.lt_or_eq_of_le hge
  · rw [shiftToTargetExponent_of_lt hlt ht]
    exact ⟨r, t, rfl, rfl, rfl, hle, hlt, le_refl t, by omega, id⟩
  · rw [shiftToTargetExponent_two_pow ht]
    refine ⟨2 ^ 52, t + 1, rfl, rfl, ?_, by decide, by decide, by omega, le_refl _,
      fun _ => by decide⟩
    rw [zpow_add_one₀ two_ne_zero]
    push_cast
    ring

/-- The first shift brings a number to units of the last place. -/
theorem exists_units {m : ℕ} {e : ℤ} {a : Accuracy} {x : ℚ}
    (cuts : Cuts (.ofMantissaAndAccuracy m a) x)
    (he : e ≤ max (totalExponent m e - 53) (-1074)) :
    ∃ (em : ExtendedMantissa) (t : ℤ) (y : ℚ),
      shiftToTargetExponent .binary64 m e a = (em, t) ∧ Cuts em y ∧ x * 2 ^ e = y * 2 ^ t ∧
        t = max (totalExponent m e - 53) (-1074) ∧ y < 2 ^ 53 ∧
        (-1021 ≤ totalExponent m e → 2 ^ 52 ≤ y) := by
  obtain ⟨t, ht⟩ : ∃ t, t = max (totalExponent m e - 53) (-1074) := ⟨_, rfl⟩
  obtain ⟨n, hn⟩ : ∃ n : ℕ, e + n = t := ⟨(t - e).toNat, by omega⟩
  have target : (Format.binary64.targetExponent (totalExponent m e) - e).toNat = n := by
    rw [targetExponent_eq, ← ht]
    omega
  have hle := cuts.le
  have hlt := cuts.lt
  rw [mantissa_ofMantissaAndAccuracy] at hle hlt
  refine ⟨ExtendedMantissa.ofMantissaAndAccuracy m a >>> n, t, x / 2 ^ n, ?_, cuts.shiftRight n, ?_,
    ht, ?_, fun h => ?_⟩
  · simp only [shiftToTargetExponent, shiftToExponent, target, hn]
  · rw [← hn, zpow_add₀ two_ne_zero, zpow_natCast]
    field_simp
  · rw [totalExponent_eq rfl] at ht
    have digits : (m : ℚ) + 1 ≤ 2 ^ (m.log2 + 1) := by exact_mod_cast Nat.lt_log2_self
    have shift : (2 : ℚ) ^ (m.log2 + 1) ≤ 2 ^ (53 + n) := pow_le_pow_right₀ one_le_two (by omega)
    rw [div_lt_iff₀ (by positivity), ← pow_add]
    exact hlt.trans_le (digits.trans shift)
  · rw [totalExponent_eq rfl] at h ht
    have hlog : m.log2 = 52 + n := by omega
    have hm : m ≠ 0 := by
      rintro rfl
      rw [Nat.log2_zero] at hlog
      omega
    have digits : (2 : ℚ) ^ (52 + n) ≤ m := by exact_mod_cast ((Nat.log2_eq_iff hm).1 hlog).1
    rw [le_div_iff₀ (by positivity), ← pow_add]
    exact digits.trans hle

/-- Below the middle between the greatest double and the power of two above it, nothing is rounded up
to that power. -/
theorem exponent_lt {k r : ℕ} {t e : ℤ} {y : ℚ} (hvalue : (k : ℚ) * 2 ^ e = r * 2 ^ t)
    (hk : 2 ^ 52 ≤ k) (hr : r ≤ 2 ^ 53) (hy : 2 ^ 52 ≤ y) (half : |(r : ℚ) - y| ≤ 1 / 2)
    (hhigh : y * 2 ^ t < 2 ^ (1024 : ℤ) - 2 ^ (970 : ℤ)) : e < 972 := by
  by_contra hge
  have unit : (0 : ℚ) < 2 ^ t := by positivity
  have hk : (2 : ℚ) ^ (52 : ℤ) ≤ k := by exact_mod_cast hk
  have hr : (r : ℚ) ≤ 2 ^ (53 : ℤ) := by exact_mod_cast hr
  have hy : (2 : ℚ) ^ (52 : ℤ) ≤ y := by exact_mod_cast hy
  have large : (2 : ℚ) ^ (1024 : ℤ) ≤ r * 2 ^ t := by
    have hpow : (2 : ℚ) ^ (972 : ℤ) ≤ 2 ^ e := zpow_le_zpow_right₀ one_le_two (by omega)
    calc (2 : ℚ) ^ (1024 : ℤ) = 2 ^ (52 : ℤ) * 2 ^ (972 : ℤ) := by rw [← zpow_add₀ two_ne_zero]; rfl
      _ ≤ k * 2 ^ e := mul_le_mul hk hpow (by positivity) (by positivity)
      _ = r * 2 ^ t := hvalue
  -- the unit has to be that of the greatest doubles
  have lower : 1024 ≤ 53 + t := by
    refine (zpow_le_zpow_iff_right₀ (one_lt_two (α := ℚ))).1 (large.trans ?_)
    rw [zpow_add₀ two_ne_zero]
    exact mul_le_mul_of_nonneg_right hr unit.le
  have upper : 52 + t < 1024 := by
    refine (zpow_lt_zpow_iff_right₀ (one_lt_two (α := ℚ))).1 ?_
    rw [zpow_add₀ two_ne_zero]
    calc (2 : ℚ) ^ (52 : ℤ) * 2 ^ t ≤ y * 2 ^ t := mul_le_mul_of_nonneg_right hy unit.le
      _ < 2 ^ (1024 : ℤ) - 2 ^ (970 : ℤ) := hhigh
      _ < 2 ^ (1024 : ℤ) := sub_lt_self _ (by positivity)
  obtain rfl : t = 971 := by omega
  have double : (2 : ℚ) ^ (971 : ℤ) = 2 * 2 ^ (970 : ℤ) := by
    rw [← zpow_one_add₀ two_ne_zero]
    rfl
  have near : (r : ℚ) - 1 / 2 ≤ y := sub_le_comm.1 (abs_le.1 half).2
  have middle : (r : ℚ) * 2 ^ (971 : ℤ) - 2 ^ (970 : ℤ) = (r - 1 / 2) * 2 ^ (971 : ℤ) := by
    rw [double]
    generalize (2 : ℚ) ^ (970 : ℤ) = a
    ring
  refine absurd hhigh (not_lt.2 ?_)
  calc (2 : ℚ) ^ (1024 : ℤ) - 2 ^ (970 : ℤ) ≤ r * 2 ^ (971 : ℤ) - 2 ^ (970 : ℤ) :=
        sub_le_sub_right large _
    _ = (r - 1 / 2) * 2 ^ (971 : ℤ) := middle
    _ ≤ y * 2 ^ (971 : ℤ) := mul_le_mul_of_nonneg_right near unit.le

/-- **Rounding gives the nearest double.** -/
theorem isNearest_roundWithAccuracy {m : ℕ} {e : ℤ} {a : Accuracy} {x : ℚ}
    (cuts : Cuts (.ofMantissaAndAccuracy m a) x)
    (he : e ≤ totalExponent m e - 53) (hlow : -1021 ≤ totalExponent m e)
    (hhigh : x * 2 ^ e < 2 ^ (1024 : ℤ) - 2 ^ (970 : ℤ)) :
    IsNearest (pack (roundWithAccuracy .binary64 .positive m e a)) (x * 2 ^ e) := by
  obtain ⟨em, t, y, first, cuts, units, ht, upper, lower⟩ :=
    exists_units (e := e) cuts (by omega)
  have lower := lower hlow
  obtain ⟨half, even⟩ := cuts.abs_roundedMantissa_sub_le
  set r := em.roundedMantissa with hr
  have hrange := abs_le.1 half
  have hr₁ : 2 ^ 52 ≤ r := by
    have : (2 : ℚ) ^ 52 < r + 1 := by linarith
    exact Nat.lt_succ_iff.1 (by exact_mod_cast this)
  have hr₂ : r ≤ 2 ^ 53 := by
    have : (r : ℚ) < 2 ^ 53 + 1 := by linarith
    exact Nat.lt_succ_iff.1 (by exact_mod_cast this)
  obtain ⟨k, f, hk, hf, hvalue, hk₁, hk₂, hf₁, hf₂, hkeven⟩ :=
    exists_shiftToTargetExponent hr₁ hr₂ (t := t) (by omega)
  have hpos : 0 < k := by omega
  have rounded : roundWithAccuracy .binary64 .positive m e a = .finite .positive k f hpos := by
    simp only [roundWithAccuracy, first, ← hr, hk, hf]
    exact dif_neg hpos.ne'
  rw [units] at hhigh ⊢
  have canonical : Canonical (.finite .positive k f hpos) :=
    ⟨hk₂, by omega, exponent_lt hvalue hk₁ hr₂ lower half hhigh, .inl hk₁⟩
  rw [rounded]
  have unpacked := unpack_pack canonical
  refine isNearest_of_units (r := r) ?_ ?_ lower half fun h => ?_
  · rw [isFinite_eq, unpacked]
    rfl
  · rw [value, unpacked]
    exact hvalue
  · rw [mantissa, unpacked]
    exact hkeven (even h)

/-! ## Numbers in the range of normal doubles -/

/-- A number is in the range of the normal doubles: not below the least one, and nearer to the
greatest one than to the power of two above it. -/
def InRange (q : ℚ) : Prop := 2 ^ (-1022 : ℤ) ≤ |q| ∧ |q| < 2 ^ (1024 : ℤ) - 2 ^ (970 : ℤ)

theorem inRange_of_lt {q : ℚ} (hlow : 2 ^ (-1022 : ℤ) ≤ |q|) (hhigh : |q| < 2 ^ (1023 : ℤ)) :
    InRange q := by
  refine ⟨hlow, hhigh.trans_le (le_sub_iff_add_le.2 ?_)⟩
  calc (2 : ℚ) ^ (1023 : ℤ) + 2 ^ (970 : ℤ) ≤ 2 ^ (1023 : ℤ) + 2 ^ (1023 : ℤ) :=
        add_le_add_right (zpow_le_zpow_right₀ one_le_two (by omega)) _
    _ = 2 ^ (1024 : ℤ) := by
        rw [← two_mul, ← zpow_one_add₀ two_ne_zero]
        rfl

theorem InRange.neg {q : ℚ} (h : InRange q) : InRange (-q) := by rwa [InRange, abs_neg]

theorem totalExponent_bounds {m : ℕ} (hm : m ≠ 0) (e : ℤ) {x : ℚ} (hle : m ≤ x)
    (hlt : x < m + 1) :
    2 ^ (totalExponent m e - 1) ≤ x * 2 ^ e ∧ x * 2 ^ e < 2 ^ totalExponent m e := by
  obtain ⟨hlo, hhi⟩ := (Nat.log2_eq_iff hm).1 rfl
  have hlo : (2 : ℚ) ^ m.log2 ≤ m := by exact_mod_cast hlo
  have hhi : (m : ℚ) + 1 ≤ 2 ^ (m.log2 + 1) := by exact_mod_cast hhi
  have unit : (0 : ℚ) < 2 ^ e := by positivity
  rw [totalExponent_eq rfl]
  constructor
  · rw [show (m.log2 : ℤ) + 1 + e - 1 = m.log2 + e by ring, zpow_add₀ two_ne_zero, zpow_natCast]
    exact mul_le_mul_of_nonneg_right (hlo.trans hle) unit.le
  · rw [zpow_add₀ two_ne_zero, show (m.log2 : ℤ) + 1 = (m.log2 + 1 : ℕ) by push_cast; rfl,
      zpow_natCast]
    exact mul_lt_mul_of_pos_right (hlt.trans_le hhi) unit

/-- The range of a number bounds its exponent. -/
theorem InRange.le_totalExponent {m : ℕ} (hm : m ≠ 0) {e : ℤ} {x : ℚ} (hle : m ≤ x)
    (hlt : x < m + 1) (h : InRange (x * 2 ^ e)) : -1021 ≤ totalExponent m e := by
  obtain ⟨-, hhi⟩ := totalExponent_bounds hm e hle hlt
  have hx : (0 : ℚ) ≤ x := (Nat.cast_nonneg m).trans hle
  have hlo := h.1
  rw [abs_of_nonneg (by positivity)] at hlo
  have hexp := (zpow_lt_zpow_iff_right₀ one_lt_two).1 (hlo.trans_lt hhi)
  omega

theorem cuts_exact (m : ℕ) : Cuts (.ofMantissaAndAccuracy m .exact) m where
  le := le_refl _
  lt := lt_add_one _
  roundBit := by simp [ExtendedMantissa.ofMantissaAndAccuracy]
  stickyBit := by simp [ExtendedMantissa.ofMantissaAndAccuracy]

/-- Rounding with a sign, in the range of normal doubles. -/
theorem isNearest_sign {m : ℕ} {e : ℤ} {a : Accuracy} {x : ℚ}
    (cuts : Cuts (.ofMantissaAndAccuracy m a) x) (hm : m ≠ 0)
    (he : e ≤ totalExponent m e - 53) (h : InRange (x * 2 ^ e)) (s : Sign) :
    IsNearest (pack (roundWithAccuracy .binary64 s m e a)) (s.apply 1 * (x * 2 ^ e)) := by
  have hle := cuts.le
  have hlt := cuts.lt
  rw [mantissa_ofMantissaAndAccuracy] at hle hlt
  have h := isNearest_roundWithAccuracy cuts he (h.le_totalExponent hm hle hlt)
    ((le_abs_self _).trans_lt h.2)
  cases s with
  | positive => simpa [Sign.apply] using h
  | negative =>
    have hneg := h.neg
    rw [neg_pack, ← roundWithAccuracy_neg] at hneg
    change IsNearest (pack (roundWithAccuracy .binary64 .negative m e a)) _ at hneg
    simpa [Sign.apply] using hneg

theorem log2_shiftLeft {m : ℕ} (hm : m ≠ 0) (n : ℕ) : (m <<< n).log2 = m.log2 + n := by
  obtain ⟨hlo, hhi⟩ := (Nat.log2_eq_iff hm).1 rfl
  rw [Nat.shiftLeft_eq]
  have pos := Nat.two_pow_pos n
  refine (Nat.log2_eq_iff (Nat.mul_ne_zero hm pos.ne')).2 ⟨?_, ?_⟩
  · rw [pow_add]
    exact Nat.mul_le_mul_right _ hlo
  · rw [show m.log2 + n + 1 = m.log2 + 1 + n by omega, pow_add]
    exact Nat.mul_lt_mul_of_pos_right hhi pos

/-- Shifting digits in does not change the number. -/
theorem shiftLeft_value (m n : ℕ) (e : ℤ) : ((m <<< n : ℕ) : ℚ) * 2 ^ (e - n) = m * 2 ^ e := by
  rw [Nat.shiftLeft_eq, zpow_sub₀ two_ne_zero, zpow_natCast]
  push_cast
  field_simp

theorem isNearest_round {m : ℕ} (hm : m ≠ 0) {e : ℤ} (h : InRange (m * 2 ^ e)) (s : Sign) :
    IsNearest (pack (round .binary64 s m e)) (s.apply 1 * (m * 2 ^ e)) := by
  have hlow := h.le_totalExponent hm (le_refl _) (lt_add_one _)
  simp only [UnpackedFloat.round, decreaseExponent, targetExponent_eq]
  set n := (e - max (totalExponent m e - 53) (-1074)).toNat with hn
  have hm' : m <<< n ≠ 0 := by
    rw [Nat.shiftLeft_eq]
    exact Nat.mul_ne_zero hm (Nat.two_pow_pos n).ne'
  have total : totalExponent (m <<< n) (e - n) = totalExponent m e := by
    rw [totalExponent_eq (log2_shiftLeft hm n), totalExponent_eq rfl]
    push_cast
    ring
  rw [← shiftLeft_value m n e] at h ⊢
  exact isNearest_sign (cuts_exact _) hm' (by omega) h s

theorem isExact_zero (z : Sign) : IsExact (pack (.zero z)) 0 := by
  have unpacked : unpack (pack (.zero z)) = .zero z := unpack_pack trivial
  refine ⟨?_, ?_⟩
  · rw [isFinite_eq, unpacked]
    rfl
  · rw [value, unpacked]
    rfl

/-- A whole number of units is rounded to the nearest double. -/
theorem isNearest_normalize {n e : ℤ} (h : n = 0 ∨ InRange (n * 2 ^ e)) (z : Sign) :
    IsNearest (pack (normalize .binary64 n e z)) (n * 2 ^ e) := by
  unfold UnpackedFloat.normalize
  obtain hlt | rfl | hgt := lt_trichotomy n 0
  · rw [compare_lt_iff_lt.2 hlt]
    have cast : ((-n).toNat : ℚ) = -n := by exact_mod_cast Int.toNat_of_nonneg (by omega)
    have hrange : InRange ((-n).toNat * 2 ^ e) := by
      rw [cast, neg_mul]
      exact (h.resolve_left hlt.ne).neg
    have hround := isNearest_round (by omega) hrange .negative
    rw [cast] at hround
    simpa [Sign.apply] using hround
  · rw [compare_eq_iff_eq.2 rfl]
    simpa using (isExact_zero z).isNearest
  · rw [compare_gt_iff_gt.2 hgt]
    have cast : (n.toNat : ℚ) = n := by exact_mod_cast Int.toNat_of_nonneg (by omega)
    have hrange : InRange (n.toNat * 2 ^ e) := by
      rw [cast]
      exact h.resolve_left hgt.ne'
    have hround := isNearest_round (by omega) hrange .positive
    rw [cast] at hround
    simpa [Sign.apply] using hround

end Reckoner.Double
