import Reckoner.Proofs.Decimal.Shown

/-!
# Showing is exact rounding

A finite double is shown as a number in its shortest form, without zeros that could be left out and
without the sign of a zero (`Shown.IsReduced`), and this number is the exact value of the double
rounded to ten places, a half going away from zero (`RoundsTo`, `render_rounded`). The value is a
fraction, not a double: nothing is rounded before the last place is.
-/

namespace Reckoner.Decimal

open Double

/-! ## Numbers as texts -/

/-- A number as it is shown: its sign, and its digits before and behind the point. -/
structure Shown extends Digits where
  negative : Bool

namespace Shown

/-- The sign of a negative number, and the digits. -/
def text (n : Shown) : List Char :=
  (if n.negative = true then ['-'] else []) ++ n.toDigits.text

/-- The number that is denoted. -/
def value (n : Shown) : ℚ :=
  (if n.negative = true then -1 else 1) * (n.units / 10 ^ n.fraction.length)

/-- Nothing is shown that could be left out. -/
structure IsReduced (n : Shown) : Prop where
  whole_ne_nil : n.whole ≠ []
  whole_digits : n.whole.all Char.isDigit = true
  whole_head : n.whole.head? = some '0' → n.whole = ['0']
  fraction_digits : n.fraction.all Char.isDigit = true
  fraction_length : n.fraction.length ≤ 10
  fraction_last : n.fraction.getLast? ≠ some '0'
  negative_iff : n.negative = true ↔ n.value < 0

theorem IsReduced.isDecimal {n : Shown} (h : n.IsReduced) : IsDecimal n.toDigits.text n.toDigits :=
  Digits.isDecimal_text h.whole_ne_nil h.whole_digits h.fraction_digits

theorem sign_not_mem {text : List Char} {d : Digits} (h : IsDecimal text d) : '-' ∉ text := by
  intro hmem
  cases h.isLiteralChar hmem

/-- A text denotes one number at most. -/
theorem IsReduced.eq_of_text_eq {n m : Shown} (hn : n.IsReduced) (hm : m.IsReduced)
    (h : n.text = m.text) : n = m := by
  have digits {d e : Digits} (hd : IsDecimal d.text d) (he : IsDecimal e.text e)
      (hde : d.text = e.text) : d = e := by
    rw [hde] at hd
    exact hd.unique he
  obtain ⟨d, b⟩ := n
  obtain ⟨e, c⟩ := m
  have hd : IsDecimal d.text d := hn.isDecimal
  have he : IsDecimal e.text e := hm.isDecimal
  -- no digits start with the sign
  have sign {f g : Digits} (hf : IsDecimal f.text f) (h : f.text = '-' :: g.text) : False :=
    sign_not_mem hf (h ▸ List.mem_cons_self)
  cases b <;> cases c
  · rw [digits hd he h]
  · exact (sign hd h).elim
  · exact (sign he h.symm).elim
  · rw [digits hd he (List.cons.inj h).2]

end Shown

/-! ## Digits without superfluous zeros -/

/-- Only zero starts with a zero. -/
theorem head?_toDigits {n : ℕ} (h : (Nat.toDigits 10 n).head? = some '0') : n = 0 := by
  induction n using Nat.strongRecOn with
  | ind n ih =>
    rw [Nat.toDigits_eq_if (by decide)] at h
    split at h
    · exact Nat.digitChar_eq_zero.1 (Option.some.inj h)
    · rename_i hn
      rw [List.head?_append_of_ne_nil _ Nat.toDigits_ne_nil] at h
      have head : n / 10 = 0 := ih (n / 10) (by omega) h
      omega

theorem getLast?_dropFinalZeros (text : List Char) :
    (dropFinalZeros text).getLast? ≠ some '0' := by
  rw [dropFinalZeros, List.getLast?_reverse]
  intro h
  have hne := List.head?_dropWhile_not (decide <| · = '0') text.reverse
  rw [h] at hne
  exact absurd hne (by decide)

theorem length_dropFinalZeros_le (text : List Char) :
    (dropFinalZeros text).length ≤ text.length := by
  obtain ⟨k, hk⟩ := exists_dropFinalZeros text
  conv_rhs => rw [hk, List.length_append]
  exact Nat.le_add_right _ _

/-! ## Rounding -/

/-- The multiple `r` of the last place is nearest to `q`, and of two that are as near it is the one
farther from zero. -/
structure RoundsTo (q r : ℚ) : Prop where
  multiple : ∃ k : ℤ, r = k / 10 ^ 10
  nearest (k : ℤ) : |r - q| ≤ |k / 10 ^ 10 - q|
  tie (k : ℤ) : |k / 10 ^ 10 - q| = |r - q| → |(k / 10 ^ 10 : ℚ)| ≤ |r|

theorem RoundsTo.neg {q r : ℚ} (h : RoundsTo q r) : RoundsTo (-q) (-r) := by
  have reflect (a : ℚ) : |a - -q| = |-a - q| := by
    rw [← abs_neg, neg_sub, neg_sub_left, sub_eq_add_neg, neg_add]
  have opposite (k : ℤ) : -(k / 10 ^ 10 : ℚ) = (-k : ℤ) / 10 ^ 10 := by
    rw [Int.cast_neg, neg_div]
  obtain ⟨k, hk⟩ := h.multiple
  refine ⟨⟨-k, by rw [hk, opposite]⟩, fun j => ?_, fun j hj => ?_⟩
  · rw [reflect, neg_neg, reflect, opposite]
    exact h.nearest (-j)
  · rw [reflect, reflect, neg_neg, opposite] at hj
    rw [abs_neg, ← abs_neg, opposite]
    exact h.tie (-j) hj

/-- Of two whole numbers that are as near, a half that goes up takes the one farther from zero. -/
theorem abs_le_of_abs_sub_eq {a : ℚ} {u : ℕ} {k : ℤ} (ha : 0 ≤ a) (half : |u - a| ≤ 1 / 2)
    (hlt : a + 1 / 2 < u + 1) (h : |k - a| = |u - a|) : |(k : ℚ)| ≤ u := by
  rw [← h] at half
  obtain ⟨hlow, hhigh⟩ := abs_le.1 half
  by_contra hk
  have far : (u + 1 : ℤ) ≤ |k| := by
    have : ((u : ℤ) : ℚ) < (|k| : ℤ) := by simpa using not_le.1 hk
    exact_mod_cast this
  have nonneg : (0 : ℚ) ≤ u := Nat.cast_nonneg u
  rcases le_abs.1 far with above | below
  · have above : (u + 1 : ℚ) ≤ k := by exact_mod_cast above
    linarith
  · have below : (u + 1 : ℚ) ≤ -k := by exact_mod_cast below
    linarith

/-- **The units of the last place are the rounded magnitude.** -/
theorem roundsTo_shownUnits (x : Float) : RoundsTo |value x| (shownUnits x / scale) := by
  have hscale : (0 : ℚ) < scale := by exact_mod_cast scale_pos
  obtain ⟨-, hlt⟩ := shownUnits_eq_iff.1 (rfl : shownUnits x = _)
  have half := abs_shownUnits_sub_le x
  have ha : 0 ≤ |value x| := abs_nonneg _
  generalize shownUnits x = u at *
  generalize |value x| = a at *
  -- distances in units of the last place
  have units (k : ℚ) : |k / scale - a| = |k - a * scale| / scale := by
    rw [← abs_of_pos hscale, ← abs_div, abs_of_pos hscale, sub_div,
      mul_div_cancel_right₀ _ hscale.ne']
  refine ⟨⟨u, by rw [cast_scale, Int.cast_natCast]⟩, fun k => ?_, fun k hk => ?_⟩
  · rw [← cast_scale, units, units]
    refine div_le_div_of_nonneg_right ?_ hscale.le
    by_cases hku : k = u
    · rw [hku, Int.cast_natCast]
    · exact half.trans (abs_sub_le_of_half half hku)
  · rw [← cast_scale, units, units, div_left_inj' hscale.ne'] at hk
    rw [← cast_scale, abs_div, abs_div, abs_of_pos hscale, Nat.abs_cast]
    exact div_le_div_of_nonneg_right
      (abs_le_of_abs_sub_eq (mul_nonneg ha hscale.le) half hlt hk) hscale.le

/-! ## What is shown -/

/-- The number that a double is shown as. -/
def shown (x : Float) : Shown where
  toDigits := shownDigits (shownUnits x)
  negative := decide (value x < 0) && shownUnits x ≠ 0

variable {x : Float}

theorem text_shown (hx : x.isFinite = true) : (shown x).text = render x := by
  rw [render_of_isFinite hx, Shown.text, shown, renderUnits, List.append_assoc]
  rfl

theorem value_shown (x : Float) :
    (shown x).value =
      if value x < 0 then -(shownUnits x / scale : ℚ) else shownUnits x / scale := by
  have units := value_shownDigits (shownUnits x)
  rw [zpow_neg, zpow_natCast, ← div_eq_mul_inv] at units
  rw [Shown.value, shown, units]
  by_cases h0 : shownUnits x = 0
  · simp [h0]
  · by_cases hx : value x < 0 <;> simp [h0, hx]

theorem isReduced_shown (x : Float) : (shown x).IsReduced where
  whole_ne_nil := Nat.toDigits_ne_nil
  whole_digits := all_isDigit_whole _
  whole_head h := by
    have h0 : shownUnits x / scale = 0 := head?_toDigits h
    change Nat.toDigits 10 (shownUnits x / scale) = ['0']
    rw [h0]
    rfl
  fraction_digits := all_isDigit_fraction _
  fraction_length := (length_dropFinalZeros_le _).trans (length_lastDigits _ _).le
  fraction_last := getLast?_dropFinalZeros _
  negative_iff := by
    have hscale : (0 : ℚ) < scale := by exact_mod_cast scale_pos
    rw [value_shown]
    by_cases h0 : shownUnits x = 0
    · simp [shown, h0]
    · have positive : (0 : ℚ) < shownUnits x / scale := by positivity
      by_cases hx : value x < 0
      · simp [shown, h0, hx, positive]
      · simp [shown, h0, hx, positive.le]

theorem roundsTo_shown (x : Float) : RoundsTo (value x) (shown x).value := by
  have magnitude := roundsTo_shownUnits x
  rw [value_shown]
  by_cases hx : value x < 0
  · rw [if_pos hx]
    rw [abs_of_neg hx] at magnitude
    simpa using magnitude.neg
  · rw [if_neg hx]
    rwa [abs_of_nonneg (not_lt.1 hx)] at magnitude

/-- **A finite double is shown by its exact value, rounded to ten places.** Its text denotes one
number in its shortest form, and this is the multiple of the last place that is nearest to the value,
of two that are as near the one farther from zero. -/
theorem render_rounded (hx : x.isFinite = true) :
    ∃ n : Shown, n.IsReduced ∧ RoundsTo (value x) n.value ∧
      ∀ m : Shown, m.IsReduced → (m.text = render x ↔ m = n) := by
  refine ⟨shown x, isReduced_shown x, roundsTo_shown x, fun m hm => ?_⟩
  rw [← text_shown hx]
  constructor
  · exact hm.eq_of_text_eq (isReduced_shown x)
  · rintro rfl
    rfl

theorem render_rounded_half :
    (-1 / 2048 : Float).isFinite = true ∧ render (-1 / 2048) = "-0.0004882813".toList ∧
      ∃ n : Shown, n.IsReduced ∧ RoundsTo (value (-1 / 2048)) n.value ∧
        ∀ m : Shown, m.IsReduced → (m.text = render (-1 / 2048) ↔ m = n) := by
  have finite : (-1 / 2048 : Float).isFinite = true := by decide +kernel
  refine ⟨finite, ?_, render_rounded finite⟩
  decide +kernel

end Reckoner.Decimal
