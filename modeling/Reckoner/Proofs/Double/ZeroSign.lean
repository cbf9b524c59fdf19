import Reckoner.Operator
import Reckoner.Proofs.Double.Unpacked

/-!
# Doubles up to the sign of zero

Two doubles are alike if they are equal or both zero (`Alike`). The operations keep doubles alike,
the division as long as the divisor is not zero, so a computation that refuses to divide by zero
never tells the two zeros apart (`Alike.div`). Up to the sign of zero a subtraction from zero is a
change of sign (`zero_sub_alike`), and products and quotients change their sign with their first
operand (`mul_neg_left`, `div_neg_left`).
-/

namespace Reckoner.Double

open Float.Model Float.Model.UnpackedFloat

/-- A zero, of either sign. -/
def IsZero (x : Float) : Prop := ∃ s, unpack x = .zero s

/-- Equal, or both zero. -/
def Alike (x y : Float) : Prop := x = y ∨ IsZero x ∧ IsZero y

/-- Equal, or both zero, said of the parts. -/
def AlikeParts (u v : UnpackedFloat) : Prop := u = v ∨ ∃ s t, u = .zero s ∧ v = .zero t

theorem alike_iff {x y : Float} : Alike x y ↔ AlikeParts (unpack x) (unpack y) := by
  constructor
  · rintro (rfl | ⟨⟨s, hs⟩, t, ht⟩)
    · exact .inl rfl
    · exact .inr ⟨s, t, hs, ht⟩
  · rintro (h | ⟨s, t, hs, ht⟩)
    · exact .inl (unpack_injective h)
    · exact .inr ⟨⟨s, hs⟩, t, ht⟩

theorem Alike.refl (x : Float) : Alike x x := .inl rfl

theorem Alike.symm {x y : Float} (h : Alike x y) : Alike y x := h.imp Eq.symm And.symm

theorem Alike.trans {x y z : Float} (h : Alike x y) (h' : Alike y z) : Alike x z := by
  obtain rfl | ⟨hx, hy⟩ := h
  · exact h'
  · obtain rfl | ⟨-, hz⟩ := h'
    · exact .inr ⟨hx, hy⟩
    · exact .inr ⟨hx, hz⟩

/-- Packing keeps parts alike. -/
theorem AlikeParts.pack {u v : UnpackedFloat} (h : AlikeParts u v) :
    Alike (pack u) (pack v) := by
  obtain rfl | ⟨s, t, rfl, rfl⟩ := h
  · exact .refl _
  · exact .inr ⟨⟨s, unpack_pack trivial⟩, t, unpack_pack trivial⟩

theorem beq_zero_iff {x : Float} : (x == 0) = true ↔ IsZero x := by
  have beq_eq : (x == 0) = (unpack x).beq (unpack 0) := rfl
  rw [beq_eq, unpack_zero, IsZero]
  generalize unpack x = u
  cases u with
  | notANumber => simp [UnpackedFloat.beq, UnpackedFloat.compare]
  | infinity s => cases s <;> simp [UnpackedFloat.beq, UnpackedFloat.compare]
  | zero s => simp [UnpackedFloat.beq, UnpackedFloat.compare]
  | finite s m e hm => cases s <;> simp [UnpackedFloat.beq, UnpackedFloat.compare]

theorem Alike.beq_zero {x y : Float} (h : Alike x y) : (x == 0) = (y == 0) := by
  obtain rfl | ⟨hx, hy⟩ := h
  · rfl
  · rw [beq_zero_iff.2 hx, beq_zero_iff.2 hy]

/-- A finite double is numerically equal to what it is alike to. -/
theorem Alike.beq {x y : Float} (h : Alike x y) (hx : x.isFinite = true) : (x == y) = true := by
  have beq_eq : (x == y) = (unpack x).beq (unpack y) := rfl
  have finite_eq : x.isFinite = (unpack x).isFinite := rfl
  rw [beq_eq]
  rw [finite_eq] at hx
  obtain h | ⟨s, t, hs, ht⟩ := alike_iff.1 h
  · rw [← h]
    cases hu : unpack x with
    | notANumber => simp [hu, UnpackedFloat.isFinite] at hx
    | infinity s => simp [hu, UnpackedFloat.isFinite] at hx
    | zero s => rfl
    | finite s m e hm => cases s <;> simp [UnpackedFloat.beq, UnpackedFloat.compare]
  · rw [hs, ht]
    rfl

/-- What is alike and not equal is finite. -/
theorem Alike.isFinite {x y : Float} (h : Alike x y) :
    x = y ∨ x.isFinite = true ∧ y.isFinite = true := by
  refine h.imp_right fun ⟨⟨s, hs⟩, t, ht⟩ => ⟨?_, ?_⟩
  · change (unpack x).isFinite = true
    rw [hs]
    rfl
  · change (unpack y).isFinite = true
    rw [ht]
    rfl

/-! ## Operations -/

theorem AlikeParts.add {u u' v v' : UnpackedFloat} (hu : AlikeParts u u') (hv : AlikeParts v v') :
    AlikeParts (.add .binary64 u v) (.add .binary64 u' v') := by
  obtain rfl | ⟨s, s', rfl, rfl⟩ := hu <;> obtain rfl | ⟨t, t', rfl, rfl⟩ := hv
  · exact .inl rfl
  · cases u with
    | zero s => simp only [UnpackedFloat.add, AlikeParts]; right; split_ifs <;> simp
    | _ => exact .inl rfl
  · cases v with
    | zero t => simp only [UnpackedFloat.add, AlikeParts]; right; split_ifs <;> simp
    | _ => exact .inl rfl
  · simp only [UnpackedFloat.add, AlikeParts]
    right
    split_ifs <;> simp

theorem AlikeParts.neg {u v : UnpackedFloat} (h : AlikeParts u v) : AlikeParts u.neg v.neg := by
  obtain rfl | ⟨s, t, rfl, rfl⟩ := h
  · exact .inl rfl
  · exact .inr ⟨-s, -t, rfl, rfl⟩

/-- A subtraction adds the number with its sign changed. -/
theorem sub_parts (u v : UnpackedFloat) :
    UnpackedFloat.sub .binary64 u v = .add .binary64 u v.neg := by
  cases u with
  | notANumber => rfl
  | infinity s => cases v <;> rfl
  | zero s => cases v <;> rfl
  | finite s m e hm =>
    cases v with
    | finite t m' e' hm' =>
      simp only [UnpackedFloat.sub, UnpackedFloat.add, UnpackedFloat.neg, apply_neg,
        Int.sub_eq_add_neg]
    | _ => rfl

theorem AlikeParts.sub {u u' v v' : UnpackedFloat} (hu : AlikeParts u u') (hv : AlikeParts v v') :
    AlikeParts (.sub .binary64 u v) (.sub .binary64 u' v') := by
  rw [sub_parts, sub_parts]
  exact hu.add hv.neg

theorem AlikeParts.mul {u u' v v' : UnpackedFloat} (hu : AlikeParts u u') (hv : AlikeParts v v') :
    AlikeParts (.mul .binary64 u v) (.mul .binary64 u' v') := by
  obtain rfl | ⟨s, s', rfl, rfl⟩ := hu <;> obtain rfl | ⟨t, t', rfl, rfl⟩ := hv
  · exact .inl rfl
  · cases u <;> first | exact .inl rfl | exact .inr ⟨_, _, rfl, rfl⟩
  · cases v <;> first | exact .inl rfl | exact .inr ⟨_, _, rfl, rfl⟩
  · exact .inr ⟨_, _, rfl, rfl⟩

/-- A quotient does not depend on the sign of a dividend that is zero. -/
theorem AlikeParts.div {u u' : UnpackedFloat} (hu : AlikeParts u u') (v : UnpackedFloat)
    (hv : ∀ s, v ≠ .zero s) : AlikeParts (.div .binary64 u v) (.div .binary64 u' v) := by
  obtain rfl | ⟨s, s', rfl, rfl⟩ := hu
  · exact .inl rfl
  · cases v with
    | zero t => exact absurd rfl (hv t)
    | notANumber => exact .inl rfl
    | infinity t | finite t _ _ _ => exact .inr ⟨_, _, rfl, rfl⟩

theorem Alike.add {x x' y y' : Float} (hx : Alike x x') (hy : Alike y y') :
    Alike (x + y) (x' + y') := by
  rw [add_eq, add_eq]
  exact ((alike_iff.1 hx).add (alike_iff.1 hy)).pack

theorem Alike.sub {x x' y y' : Float} (hx : Alike x x') (hy : Alike y y') :
    Alike (x - y) (x' - y') := by
  rw [sub_eq, sub_eq]
  exact ((alike_iff.1 hx).sub (alike_iff.1 hy)).pack

theorem Alike.mul {x x' y y' : Float} (hx : Alike x x') (hy : Alike y y') :
    Alike (x * y) (x' * y') := by
  rw [mul_eq, mul_eq]
  exact ((alike_iff.1 hx).mul (alike_iff.1 hy)).pack

theorem Alike.div {x x' y : Float} (hx : Alike x x') (hy : ¬IsZero y) :
    Alike (x / y) (x' / y) := by
  rw [div_eq, div_eq]
  exact ((alike_iff.1 hx).div _ fun s hs => hy ⟨s, hs⟩).pack

theorem Alike.percentOf {b b' x x' : Float} (hb : Alike b b') (hx : Alike x x') :
    Alike (percentOf b x) (percentOf b' x') := by
  refine (hx.mul hb).div fun h => ?_
  have nonzero : ((100 : Float) == 0) = false := by decide +kernel
  rw [beq_zero_iff.2 h] at nonzero
  cases nonzero

/-! ## Changes of sign -/

theorem sub_eq_add (x y : Float) : x - y = x + -y := by
  rw [sub_eq, add_eq, sub_parts, unpack_neg]

theorem mul_neg_parts (u v : UnpackedFloat) :
    UnpackedFloat.mul .binary64 u.neg v = (UnpackedFloat.mul .binary64 u v).neg := by
  have neg_mul (s t : Sign) : -s * t = -(s * t) := by cases s <;> cases t <;> rfl
  cases u <;> cases v <;>
    simp only [UnpackedFloat.neg, UnpackedFloat.mul, neg_mul, roundWithAccuracy_neg]

theorem div_neg_parts (u v : UnpackedFloat) :
    UnpackedFloat.div .binary64 u.neg v = (UnpackedFloat.div .binary64 u v).neg := by
  have neg_div (s t : Sign) : -s / t = -(s / t) := by cases s <;> cases t <;> rfl
  cases u <;> cases v <;>
    simp only [UnpackedFloat.neg, UnpackedFloat.div, neg_div, roundWithAccuracy_neg]

theorem mul_neg_left (x y : Float) : -x * y = -(x * y) := by
  rw [mul_eq, unpack_neg, mul_neg_parts, mul_eq, neg_pack]

theorem div_neg_left (x y : Float) : -x / y = -(x / y) := by
  rw [div_eq, unpack_neg, div_neg_parts, div_eq, neg_pack]

/-- Adding a zero changes nothing but the sign of a zero. -/
theorem add_zero_alike (x : Float) : Alike (x + 0) x := by
  have parts (u : UnpackedFloat) : AlikeParts (.add .binary64 u (.zero .positive)) u := by
    cases u with
    | zero s => cases s <;> exact .inr ⟨_, _, rfl, rfl⟩
    | _ => exact .inl rfl
  have h := (parts (unpack x)).pack
  rwa [pack_unpack, ← unpack_zero, ← add_eq] at h

/-- A subtraction from zero changes the sign. -/
theorem zero_sub_alike (x : Float) : Alike (0 - x) (-x) := by
  have parts (u : UnpackedFloat) : AlikeParts (.add .binary64 (.zero .positive) u) u := by
    cases u with
    | zero s => cases s <;> exact .inr ⟨_, _, rfl, rfl⟩
    | _ => exact .inl rfl
  have h := (parts (unpack (-x))).pack
  rwa [pack_unpack, ← unpack_zero, ← add_eq, ← sub_eq_add] at h

end Reckoner.Double
