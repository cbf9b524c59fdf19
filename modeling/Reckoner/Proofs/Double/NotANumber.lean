import Reckoner.Proofs.Double.Opposite

/-!
# Not a number

Packing makes a NaN of nothing else (`isNaN_pack`), and so a sum with a finite number is a NaN only
if the other number is one (`isNaN_add`): an infinity stays what it is, and what overflows becomes
one. What is taken from itself leaves a zero, or a NaN where it is not finite (`isZero_sub_self`). No
bound holds of a NaN (`isNaN_eq_false_of_le_abs`).
-/

namespace Reckoner.Double

open Float.Model Float.Model.UnpackedFloat

variable {x y : Float}

theorem isNaN_eq (x : Float) : x.isNaN = (unpack x).isNaN := rfl

/-- **Packing makes no NaN of a number.** -/
theorem isNaN_pack {u : UnpackedFloat} (h : u.isNaN = false) : (pack u).isNaN = false := by
  have below (s : Sign) {e : BitVec 11} (he : e ≠ -1#_) (m : BitVec 52) :
      (ofFields s e m).isNaN = false := by
    rw [ofFields, if_neg he]
    split_ifs <;> rfl
  rw [isNaN_eq]
  cases u with
  | notANumber => cases h
  | infinity s => exact congrArg UnpackedFloat.isNaN (unpack_pack (u := .infinity s) trivial)
  | zero s => exact congrArg UnpackedFloat.isNaN (unpack_pack (u := .zero s) trivial)
  | finite s m e hm =>
    rw [unpack_pack_eq, pack_finite]
    split_ifs with large normal
    · have infinite : ofFields s (-1#_) 0#_ = .infinity s := by simp [ofFields]
      rw [packedInfinity, unpack_packComponents]
      exact congrArg UnpackedFloat.isNaN infinite
    · rw [unpack_packComponents]
      refine below s (fun he => ?_) _
      have he : (e + 1075).toNat % 2048 = 2047 := congrArg BitVec.toNat he
      omega
    · rw [unpack_packComponents]
      exact below s (by decide) _

theorem isNaN_roundWithAccuracy (s : Sign) (m : ℕ) (e : ℤ) (a : Accuracy) :
    (roundWithAccuracy .binary64 s m e a).isNaN = false := by
  simp only [roundWithAccuracy]
  split <;> rfl

/-- **A sum with a finite number is no NaN** if the other number is none. -/
theorem isNaN_add (hx : x.isNaN = false) (hy : y.isFinite = true) : (x + y).isNaN = false := by
  rw [isNaN_eq] at hx
  have hy : (unpack y).isFinite = true := hy
  rw [add_eq]
  refine isNaN_pack ?_
  generalize unpack x = u at hx
  generalize unpack y = v at hy
  cases v with
  | notANumber | infinity _ => cases hy
  | zero t =>
    cases u with
    | notANumber => cases hx
    | zero s => cases s <;> cases t <;> rfl
    | infinity _ | finite => rfl
  | finite t m' e' hm' =>
    cases u with
    | notANumber => cases hx
    | infinity _ | zero _ => rfl
    | finite s m e hm =>
      simp only [UnpackedFloat.add, UnpackedFloat.normalize]
      split
      · exact isNaN_roundWithAccuracy _ _ _ _
      · rfl
      · exact isNaN_roundWithAccuracy _ _ _ _

/-- Sums from left to right of finite numbers are no NaN, even where they are infinite. -/
theorem isNaN_foldl_add {xs : List Float} (finite : ∀ y ∈ xs, y.isFinite = true)
    (hx : x.isNaN = false) : (xs.foldl (· + ·) x).isNaN = false := by
  induction xs generalizing x with
  | nil => exact hx
  | cons y xs ih =>
    obtain ⟨hy, finite⟩ := List.forall_mem_cons.1 finite
    exact ih finite (isNaN_add hx hy)

/-- **What is taken from itself leaves nothing**, or a NaN. -/
theorem isZero_sub_self (x : Float) : IsZero (x - x) ∨ (x - x).isNaN = true := by
  have swap := sub_swap_alike x x
  generalize x - x = d at swap
  obtain same | ⟨zero, -⟩ := swap
  · have parts := congrArg unpack same
    rw [unpack_neg] at parts
    cases hd : unpack d with
    | notANumber => exact .inr (congrArg UnpackedFloat.isNaN hd)
    | zero s => exact .inl ⟨s, hd⟩
    | infinity s | finite s _ _ _ =>
      rw [hd] at parts
      cases s <;> cases parts
  · exact .inl zero

/-- No bound holds of a NaN. -/
theorem isNaN_eq_false_of_le_abs (h : y ≤ x.abs) : x.isNaN = false := by
  refine Bool.eq_false_iff.2 fun nan => ?_
  have parts : unpack x = .notANumber := by
    rw [isNaN_eq] at nan
    cases hx : unpack x <;> simp_all [UnpackedFloat.isNaN]
  have unordered : (unpack y).compare (unpack x.abs) = none := by
    have special : unpack x.abs = .notANumber := by
      rw [abs_eq, parts]
      exact unpack_pack (u := .notANumber) trivial
    rw [special]
    cases unpack y <;> rfl
  have holds : decide (((unpack y).compare (unpack x.abs)).any (·.isLE) = true) = true := h
  rw [unordered] at holds
  cases holds

/-- Any other double equals itself. -/
theorem beq_self (h : x.isNaN = false) : (x == x) = true := by
  have beq_eq : (x == x) = (unpack x).beq (unpack x) := rfl
  rw [isNaN_eq] at h
  rw [beq_eq]
  cases hx : unpack x with
  | notANumber =>
    rw [hx] at h
    cases h
  | infinity s => cases s <;> rfl
  | zero s => rfl
  | finite s m e hm => cases s <;> simp [UnpackedFloat.beq, UnpackedFloat.compare]

end Reckoner.Double
