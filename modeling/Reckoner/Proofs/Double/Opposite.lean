import Reckoner.Proofs.Double.Comparison
import Reckoner.Proofs.Double.ZeroSign

/-!
# Opposite numbers

What the operations make of numbers whose signs are changed. Products and quotients change their
sign with either operand, sums with both, up to the sign of zero (`neg_add_alike`), and a sum does
not depend on the order of its operands. So the difference of two numbers taken the other way round
is its opposite (`sub_swap_alike`). Absolute values see neither a change of sign nor the sign of
zero.
-/

namespace Reckoner.Double

open Float.Model Float.Model.UnpackedFloat

/-! ## The order of operands -/

theorem add_parts_comm (u v : UnpackedFloat) :
    UnpackedFloat.add .binary64 u v = .add .binary64 v u := by
  cases u with
  | finite s m e hm =>
    cases v with
    | finite t m' e' hm' =>
      simp only [UnpackedFloat.add, min_comm e e', Int.add_comm]
    | _ => rfl
  | infinity s =>
    cases v with
    | infinity t => cases s <;> cases t <;> rfl
    | _ => rfl
  | zero s =>
    cases v with
    | zero t => cases s <;> cases t <;> rfl
    | _ => rfl
  | notANumber => cases v <;> rfl

theorem mul_parts_comm (u v : UnpackedFloat) :
    UnpackedFloat.mul .binary64 u v = .mul .binary64 v u := by
  have sign_comm (s t : Sign) : s * t = t * s := by cases s <;> cases t <;> rfl
  cases u <;> cases v <;>
    simp only [UnpackedFloat.mul, sign_comm, Nat.mul_comm, Int.add_comm]

theorem add_swap (x y : Float) : x + y = y + x := by
  rw [add_eq, add_parts_comm, ← add_eq]

theorem mul_swap (x y : Float) : x * y = y * x := by
  rw [mul_eq, mul_parts_comm, ← mul_eq]

/-! ## Signs of the operands -/

theorem opposite_opposite (x : Float) : - -x = x := by
  refine unpack_injective ?_
  rw [unpack_neg, unpack_neg]
  cases unpack x with
  | notANumber => rfl
  | infinity s | zero s | finite s _ _ _ => cases s <;> rfl

theorem mul_neg_right (x y : Float) : x * -y = -(x * y) := by
  rw [mul_swap, mul_neg_left, mul_swap]

theorem div_neg_right (x y : Float) : x / -y = -(x / y) := by
  have div_neg (s t : Sign) : s / -t = -(s / t) := by cases s <;> cases t <;> rfl
  have parts (u v : UnpackedFloat) :
      UnpackedFloat.div .binary64 u v.neg = (UnpackedFloat.div .binary64 u v).neg := by
    cases u <;> cases v <;>
      simp only [UnpackedFloat.neg, UnpackedFloat.div, div_neg, roundWithAccuracy_neg]
  rw [div_eq, unpack_neg, parts, div_eq, neg_pack]

theorem round_neg (s : Sign) (m : ℕ) (e : ℤ) :
    UnpackedFloat.round .binary64 (-s) m e = (UnpackedFloat.round .binary64 s m e).neg :=
  roundWithAccuracy_neg _ _ _ _

/-- The opposite of a whole number of units is rounded to the opposite. -/
theorem normalize_neg_alike (n e : ℤ) :
    AlikeParts (normalize .binary64 (-n) e .positive) (normalize .binary64 n e .positive).neg := by
  unfold UnpackedFloat.normalize
  obtain h | rfl | h := lt_trichotomy n 0
  · rw [compare_lt_iff_lt.2 h, compare_gt_iff_gt.2 (by omega : -n > 0)]
    exact .inl (round_neg .negative _ e)
  · exact .inr ⟨_, _, rfl, rfl⟩
  · rw [compare_gt_iff_gt.2 h, compare_lt_iff_lt.2 (by omega : -n < 0), Int.neg_neg]
    exact .inl (round_neg .positive _ e)

theorem add_neg_parts (u v : UnpackedFloat) :
    AlikeParts (.add .binary64 u.neg v.neg) (UnpackedFloat.add .binary64 u v).neg := by
  cases u with
  | notANumber => exact .inl rfl
  | infinity s =>
    cases v with
    | infinity t => cases s <;> cases t <;> exact .inl rfl
    | _ => exact .inl rfl
  | zero s =>
    cases v with
    | zero t => cases s <;> cases t <;> exact .inr ⟨_, _, rfl, rfl⟩
    | _ => exact .inl rfl
  | finite s m e hm =>
    cases v with
    | finite t m' e' hm' =>
      simp only [UnpackedFloat.add, UnpackedFloat.neg, apply_neg, ← Int.neg_add]
      exact normalize_neg_alike _ _
    | _ => exact .inl rfl

theorem neg_add_alike (x y : Float) : Alike (-x + -y) (-(x + y)) := by
  have h := (add_neg_parts (unpack x) (unpack y)).pack
  rwa [← unpack_neg, ← unpack_neg, ← neg_pack, ← add_eq, ← add_eq] at h

/-- A difference taken the other way round is the opposite. -/
theorem sub_swap_alike (x y : Float) : Alike (y - x) (-(x - y)) := by
  have h := neg_add_alike x (-y)
  rwa [opposite_opposite, ← sub_eq_add, add_swap, ← sub_eq_add] at h

theorem Alike.neg {x y : Float} (h : Alike x y) : Alike (-x) (-y) := by
  rw [alike_iff, unpack_neg, unpack_neg]
  exact (alike_iff.1 h).neg

/-- Numbers that are alike are equal, unless they are zero. -/
theorem Alike.eq_of_not_isZero {x y : Float} (h : Alike x y) (hx : ¬IsZero x) : x = y :=
  h.resolve_right fun hz => hx hz.1

/-- A quotient does not depend on the sign of a dividend that is zero, whatever the divisor. -/
theorem Alike.div_right {x x' : Float} (h : Alike x x') (y : Float) : Alike (x / y) (x' / y) := by
  by_cases hy : IsZero y
  · obtain rfl | ⟨⟨s, hs⟩, t, ht⟩ := h
    · exact .refl _
    · obtain ⟨r, hr⟩ := hy
      rw [div_eq, div_eq, hs, ht, hr]
      exact .inl rfl
  · exact h.div hy

theorem isZero_zero : IsZero 0 := ⟨.positive, unpack_zero⟩

theorem IsZero.neg {x : Float} (h : IsZero x) : IsZero (-x) := by
  obtain ⟨s, hs⟩ := h
  exact ⟨-s, by rw [unpack_neg, hs]; rfl⟩

/-- Adding to zero changes no number but a zero. -/
theorem zero_add_eq {x : Float} (h : value x ≠ 0) : 0 + x = x := by
  have not_zero : ¬IsZero x := by
    rintro ⟨s, hs⟩
    refine h ?_
    rw [value, hs]
    rfl
  rw [add_swap]
  exact ((add_zero_alike x).symm.eq_of_not_isZero not_zero).symm

/-! ## Absolute values -/

theorem abs_eq_self {x : Float} (h : 0 < value x) : x.abs = x := by
  have packed := pack_unpack x
  unfold value at h
  rw [abs_eq]
  generalize unpack x = u at *
  cases u with
  | finite s m e hm =>
    cases s with
    | positive => exact packed
    | negative =>
      have nonneg : (0 : ℚ) ≤ m * 2 ^ e := by positivity
      rw [partsValue_negative] at h
      linarith
  | _ => exact absurd h (lt_irrefl 0)

theorem abs_opposite (x : Float) : (-x).abs = x.abs := by
  rw [abs_eq, unpack_neg, abs_eq]
  cases unpack x <;> rfl

theorem Alike.abs_eq {x y : Float} (h : Alike x y) : x.abs = y.abs := by
  obtain rfl | ⟨⟨s, hs⟩, t, ht⟩ := h
  · rfl
  · rw [Double.abs_eq, Double.abs_eq, hs, ht]
    rfl

theorem IsZero.abs_eq {x : Float} (h : IsZero x) : x.abs = 0 := by
  have abs_zero : (0 : Float).abs = 0 := by decide +kernel
  rw [Alike.abs_eq (.inr ⟨h, isZero_zero⟩), abs_zero]

end Reckoner.Double
