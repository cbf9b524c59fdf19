import Reckoner.Proofs.Double.Value

/-!
# Comparison of doubles

Canonical numbers are compared by their exponents and, where these agree, by their mantissas. Among
them this is the order of the exact values (`compare_parts`), so finite doubles are compared by
value (`lt_iff`, `le_iff`).
-/

namespace Reckoner.Double

open Float.Model Float.Model.UnpackedFloat

/-- The order of two canonical mantissas with exponents is that of the numbers. -/
theorem compare_then {m m' : ℕ} {e e' : ℤ} {hm : 0 < m} {hm' : 0 < m'} {s s' : Sign}
    (c : Canonical (.finite s m e hm)) (c' : Canonical (.finite s' m' e' hm')) :
    (compare e e').then (compare m m') = compare ((m : ℚ) * 2 ^ e) (m' * 2 ^ e') := by
  have key {n n' : ℕ} {f f' : ℤ} (hf : f < f') (hn : n < 2 ^ 53) (hn' : 2 ^ 52 ≤ n') :
      (n : ℚ) * 2 ^ f < n' * 2 ^ f' := by
    have hn : (n : ℚ) < 2 ^ 53 := by exact_mod_cast hn
    have hn' : (2 : ℚ) ^ 52 ≤ n' := by exact_mod_cast hn'
    have hpow : (2 : ℚ) * 2 ^ f ≤ 2 ^ f' := by
      rw [← zpow_one_add₀ two_ne_zero]
      exact zpow_le_zpow_right₀ one_le_two (by omega)
    have unit : (0 : ℚ) < 2 ^ f := by positivity
    calc (n : ℚ) * 2 ^ f < 2 ^ 53 * 2 ^ f := mul_lt_mul_of_pos_right hn unit
      _ = 2 ^ 52 * (2 * 2 ^ f) := by ring
      _ ≤ n' * 2 ^ f' := mul_le_mul hn' hpow (by positivity) (by positivity)
  obtain ⟨hlt, hmin, -, hnormal⟩ := c
  obtain ⟨hlt', hmin', -, hnormal'⟩ := c'
  obtain h | rfl | h := lt_trichotomy e e'
  · rw [compare_lt_iff_lt.2 h, compare_lt_iff_lt.2 (key h hlt (hnormal'.resolve_right (by omega)))]
    rfl
  · have unit : (0 : ℚ) < 2 ^ e := by positivity
    rw [compare_eq_iff_eq.2 rfl]
    change compare m m' = _
    obtain h | rfl | h := lt_trichotomy m m'
    · rw [compare_lt_iff_lt.2 h, compare_lt_iff_lt.2]
      exact mul_lt_mul_of_pos_right (by exact_mod_cast h) unit
    · rw [compare_eq_iff_eq.2 rfl, compare_eq_iff_eq.2 rfl]
    · rw [compare_gt_iff_gt.2 h, compare_gt_iff_gt.2]
      exact mul_lt_mul_of_pos_right (by exact_mod_cast h) unit
  · rw [compare_gt_iff_gt.2 h, compare_gt_iff_gt.2 (key h hlt' (hnormal.resolve_right (by omega)))]
    rfl

theorem swap_compare (a b : ℚ) : (compare a b).swap = compare (-a) (-b) := by
  obtain h | rfl | h := lt_trichotomy a b
  · rw [compare_lt_iff_lt.2 h, compare_gt_iff_gt.2 (neg_lt_neg h)]
    rfl
  · rw [compare_eq_iff_eq.2 rfl, compare_eq_iff_eq.2 rfl]
    rfl
  · rw [compare_gt_iff_gt.2 h, compare_lt_iff_lt.2 (neg_lt_neg h)]
    rfl

theorem partsValue_positive {m : ℕ} {e : ℤ} {hm : 0 < m} :
    partsValue (.finite .positive m e hm) = m * 2 ^ e := by simp [partsValue, Sign.apply]

theorem partsValue_negative {m : ℕ} {e : ℤ} {hm : 0 < m} :
    partsValue (.finite .negative m e hm) = -(m * 2 ^ e) := by simp [partsValue, Sign.apply]

/-- **Canonical numbers are compared by value.** -/
theorem compare_parts {u v : UnpackedFloat} (cu : Canonical u) (cv : Canonical v)
    (hu : u.isFinite = true) (hv : v.isFinite = true) :
    u.compare v = some (compare (partsValue u) (partsValue v)) := by
  cases u with
  | notANumber | infinity _ => simp [UnpackedFloat.isFinite] at hu
  | zero s =>
    cases v with
    | notANumber | infinity _ => simp [UnpackedFloat.isFinite] at hv
    | zero t =>
      rw [partsValue_zero, partsValue_zero, compare_eq_iff_eq.2 rfl]
      rfl
    | finite t m e hm =>
      have pos : (0 : ℚ) < m * 2 ^ e := by positivity
      cases t with
      | positive =>
        rw [partsValue_zero, partsValue_positive, compare_lt_iff_lt.2 pos]
        rfl
      | negative =>
        rw [partsValue_zero, partsValue_negative, compare_gt_iff_gt.2 (neg_neg_of_pos pos)]
        rfl
  | finite s m e hm =>
    have pos : (0 : ℚ) < m * 2 ^ e := by positivity
    cases v with
    | notANumber | infinity _ => simp [UnpackedFloat.isFinite] at hv
    | zero t =>
      cases s with
      | positive =>
        rw [partsValue_zero, partsValue_positive, compare_gt_iff_gt.2 pos]
        rfl
      | negative =>
        rw [partsValue_zero, partsValue_negative, compare_lt_iff_lt.2 (neg_neg_of_pos pos)]
        rfl
    | finite t m' e' hm' =>
      have pos' : (0 : ℚ) < m' * 2 ^ e' := by positivity
      have order := compare_then cu cv
      cases s with
      | positive =>
        cases t with
        | positive =>
          rw [partsValue_positive, partsValue_positive, ← order]
          rfl
        | negative =>
          rw [partsValue_positive, partsValue_negative, compare_gt_iff_gt.2 (by linarith)]
          rfl
      | negative =>
        cases t with
        | positive =>
          rw [partsValue_negative, partsValue_positive, compare_lt_iff_lt.2 (by linarith)]
          rfl
        | negative =>
          rw [partsValue_negative, partsValue_negative, ← swap_compare, ← order]
          rfl

theorem lt_iff {x y : Float} (hx : x.isFinite = true) (hy : y.isFinite = true) :
    x < y ↔ value x < value y := by
  change decide (((unpack x).compare (unpack y) == some .lt) = true) = true ↔ _
  rw [decide_eq_true_iff, compare_parts (canonical_unpack x) (canonical_unpack y) hx hy, beq_iff_eq,
    Option.some.injEq, compare_lt_iff_lt]
  rfl

theorem le_iff {x y : Float} (hx : x.isFinite = true) (hy : y.isFinite = true) :
    x ≤ y ↔ value x ≤ value y := by
  change decide (((unpack x).compare (unpack y)).any (·.isLE) = true) = true ↔ _
  rw [decide_eq_true_iff, compare_parts (canonical_unpack x) (canonical_unpack y) hx hy,
    Option.any_some, Ordering.isLE_iff_ne_gt, compare_gt_iff_gt, not_lt]
  rfl

/-- Comparing the other way round gives the opposite order. -/
theorem compare_parts_swap (u v : UnpackedFloat) :
    v.compare u = (u.compare v).map Ordering.swap := by
  have order (m m' : ℕ) (e e' : ℤ) : (compare e' e).then (compare m' m) =
      ((compare e e').then (compare m m')).swap := by
    rw [Ordering.swap_then, Std.OrientedOrd.eq_swap (a := e'), Std.OrientedOrd.eq_swap (a := m')]
  cases u with
  | notANumber => cases v <;> rfl
  | infinity s =>
    cases v with
    | infinity t => cases s <;> cases t <;> rfl
    | _ => cases s <;> rfl
  | zero s =>
    cases v with
    | infinity t | finite t _ _ _ => cases t <;> rfl
    | _ => rfl
  | finite s m e hm =>
    cases v with
    | finite t m' e' hm' =>
      cases s <;> cases t
      · exact congrArg (fun o => some o.swap) (order m m' e e')
      · rfl
      · rfl
      · exact congrArg some (order m m' e e')
    | infinity t => cases s <;> cases t <;> rfl
    | _ => cases s <;> rfl

/-- No double is at most another one and greater, finite or not. -/
theorem not_lt_of_le {x y : Float} (h : x ≤ y) : ¬y < x := by
  change decide (((unpack x).compare (unpack y)).any (·.isLE) = true) = true at h
  change ¬decide (((unpack y).compare (unpack x) == some .lt) = true) = true
  rw [decide_eq_true_iff] at h
  rw [decide_eq_true_iff, beq_iff_eq, compare_parts_swap (unpack x)]
  generalize (unpack x).compare (unpack y) = o at h
  obtain _ | _ | _ | _ := o <;> simp_all

theorem abs_eq (x : Float) : x.abs = pack (unpack x).abs := rfl

theorem IsExact.abs {x : Float} {q : ℚ} (hx : IsExact x q) : IsExact x.abs |q| := by
  obtain ⟨hfin, hvalue⟩ := hx
  have cx := canonical_unpack x
  rw [isFinite_eq] at hfin
  rw [abs_eq]
  unfold value at hvalue
  generalize unpack x = u at *
  cases u with
  | notANumber | infinity _ => simp [UnpackedFloat.isFinite] at hfin
  | zero s =>
    have h := isExact_pack (u := .zero .positive) trivial rfl
    rw [← hvalue]
    exact h
  | finite s m e hm =>
    have h := isExact_pack (u := .finite .positive m e hm) cx rfl
    rw [partsValue_positive] at h
    rw [← hvalue, abs_partsValue]
    exact h

end Reckoner.Double
