import Reckoner.Expression
import Reckoner.Proofs.Decimal.Places
import Reckoner.Proofs.Outcome
import Reckoner.Proofs.Polynomial.SignedSum

/-!
# Calculations with whole numbers

The syntax trees of sums, differences and products of whole numbers, with parentheses to any depth
(`Whole`). A number may have a minus before it, a group in parentheses may not. Each tree has its
text and its exact value, and it is a tree of expressions over doubles (`Whole.rounded`). As long as
no part of it has a value beyond `2 ^ 53`, nothing is rounded on the way to that of the whole
(`Whole.exists_valueOver_rounded`).
-/

namespace Reckoner

open Decimal Double

/-- Sums, differences and products of whole numbers, by the levels of the grammar. -/
inductive Whole : Level → Type
  | literal (n : Numeral) : Whole .primary
  | negative (n : Numeral) : Whole .primary
  | parentheses (e : Whole .sum) : Whole .primary
  | ofPrimary (e : Whole .primary) : Whole .product
  | mul (left : Whole .product) (right : Whole .primary) : Whole .product
  | ofProduct (e : Whole .product) : Whole .sum
  | add (left : Whole .sum) (right : Whole .product) : Whole .sum
  | sub (left : Whole .sum) (right : Whole .product) : Whole .sum

namespace Whole

/-- The text of a calculation. -/
def text {l : Level} : Whole l → List Char
  | literal n => n.digits
  | negative n => '-' :: n.digits
  | parentheses e => '(' :: e.text ++ [')']
  | ofPrimary e | ofProduct e => e.text
  | mul left right => left.text ++ '*' :: right.text
  | add left right => left.text ++ '+' :: right.text
  | sub left right => left.text ++ '-' :: right.text

/-- The exact value of a calculation. -/
def value {l : Level} : Whole l → ℤ
  | literal n => n.value
  | negative n => -n.value
  | parentheses e | ofPrimary e | ofProduct e => e.value
  | mul left right => left.value * right.value
  | add left right => left.value + right.value
  | sub left right => left.value - right.value

/-- No part of a calculation, and not the whole of it, has a value beyond `2 ^ 53`. -/
def Bounded {l : Level} : Whole l → Prop
  | literal n | negative n => n.value ≤ 2 ^ 53
  | parentheses e | ofPrimary e | ofProduct e => e.Bounded
  | mul left right => left.Bounded ∧ right.Bounded ∧ |left.value * right.value| ≤ 2 ^ 53
  | add left right => left.Bounded ∧ right.Bounded ∧ |left.value + right.value| ≤ 2 ^ 53
  | sub left right => left.Bounded ∧ right.Bounded ∧ |left.value - right.value| ≤ 2 ^ 53

instance decidableBounded {l : Level} : (e : Whole l) → Decidable e.Bounded
  | literal n | negative n => inferInstanceAs (Decidable (n.value ≤ 2 ^ 53))
  | parentheses e | ofPrimary e | ofProduct e => decidableBounded e
  | mul left right | add left right | sub left right =>
    have := decidableBounded left
    have := decidableBounded right
    inferInstanceAs (Decidable (_ ∧ _ ∧ _))

end Whole

/-- The double that a numeral is read as. -/
def Numeral.rounded (n : Numeral) : Float := (Digits.mk n.digits []).value 0

namespace Whole

/-- The calculation over doubles. -/
def rounded {l : Level} : Whole l → Expression l
  | literal n => .number n.rounded
  | negative n => .number (-n.rounded)
  | parentheses e => .parentheses e.rounded
  | ofPrimary e => .ofFactor (.ofPrimary e.rounded)
  | mul left right => .scale left.rounded .times rfl (.ofPrimary right.rounded)
  | ofProduct e => .ofProduct e.rounded
  | add left right => .combine left.rounded .plus rfl right.rounded
  | sub left right => .combine left.rounded .minus rfl right.rounded

end Whole

/-! ## Values -/

/-- A numeral up to `2 ^ 53` is read exactly. -/
theorem Numeral.isExact_rounded {n : Numeral} (h : n.value ≤ 2 ^ 53) :
    IsExact n.rounded (n.value : ℤ) := by
  have units : ((Digits.mk n.digits []).units : ℚ) * 10 ^ (-([] : List Char).length : ℤ) =
      (n.value : ℤ) := by
    have whole : (Digits.mk n.digits []).units = n.value := by
      rw [Digits.units, List.append_nil, value]
    rw [whole]
    simp
  have bound : |(n.value : ℤ)| ≤ 2 ^ 53 := by
    rw [Nat.abs_cast]
    exact_mod_cast h
  have near : IsNearest n.rounded (n.value : ℤ) := by
    rw [← units]
    refine Digits.isNearest_value ((inRange_int bound).imp (fun hz => ?_) fun h => ?_)
    · rw [Digits.units, List.append_nil]
      exact_mod_cast hz
    · rwa [units]
  exact near.isExact_int bound

/-- **Nothing is rounded** in a calculation whose parts are bounded. -/
theorem Whole.exists_valueOver_rounded {l : Level} {e : Whole l} (h : e.Bounded) (base : Float) :
    ∃ x, e.rounded.valueOver base = .ok x ∧ IsExact x e.value := by
  induction e generalizing base with
  | literal n => exact ⟨_, rfl, n.isExact_rounded h⟩
  | negative n =>
    have exact := (n.isExact_rounded h).neg
    rw [← Int.cast_neg] at exact
    exact ⟨_, rfl, exact⟩
  | parentheses e ih | ofProduct e ih => exact ih h 1
  | ofPrimary e ih => exact ih h base
  | mul left right ihl ihr =>
    obtain ⟨hl, hr, bound⟩ := h
    obtain ⟨x, hx, exact_left⟩ := ihl hl base
    obtain ⟨y, hy, exact_right⟩ := ihr hr 1
    have value : (mul left right).rounded.valueOver base = .ok (x * y) :=
      bind_eq_ok.2 ⟨x, hx, bind_eq_ok.2 ⟨y, hy, rfl⟩⟩
    exact ⟨x * y, value, exact_left.mul exact_right bound⟩
  | add left right ihl ihr =>
    obtain ⟨hl, hr, bound⟩ := h
    obtain ⟨x, hx, exact_left⟩ := ihl hl 1
    obtain ⟨y, hy, exact_right⟩ := ihr hr x
    have value : (add left right).rounded.valueOver base = .ok (x + y) :=
      bind_eq_ok.2 ⟨x, hx, bind_eq_ok.2 ⟨y, hy, rfl⟩⟩
    exact ⟨x + y, value, exact_left.add exact_right bound⟩
  | sub left right ihl ihr =>
    obtain ⟨hl, hr, bound⟩ := h
    obtain ⟨x, hx, exact_left⟩ := ihl hl 1
    obtain ⟨y, hy, exact_right⟩ := ihr hr x
    have value : (sub left right).rounded.valueOver base = .ok (x - y) :=
      bind_eq_ok.2 ⟨x, hx, bind_eq_ok.2 ⟨y, hy, rfl⟩⟩
    exact ⟨x - y, value, exact_left.sub exact_right bound⟩

end Reckoner
