/-!
# Numbers with ten places

A number is shown by its exact value rounded to ten places behind the point, a half going away
from zero, without the zeros that end the fraction, and without the point where no fraction is
left. There is no exponent: large numbers are shown with all their digits. A value that rounds to
zero has no sign.

`Exact` is the exact value of a double, a whole number of powers of two. It is rounded to the
nearest unit of the last place (`roundDiv_bounds`).
-/

namespace Reckoner.Decimal

/-- The number `mantissa` times two to the power `exponent`, negated if `negative`. -/
structure Exact where
  negative : Bool
  mantissa : Nat
  exponent : Int

/-- The exact value of a double; none for the infinities and NaN. The first bit is the sign, the
next eleven are the exponent, and the rest is the fraction, which follows a one unless the exponent
is zero. -/
def Exact.ofFloat? (x : Float) : Option Exact :=
  let bits := x.toBits.toNat
  let negative := decide (0x8000000000000000 ≤ bits)
  let exponent : Nat := bits / 0x10000000000000 % 0x800
  let fraction : Nat := bits % 0x10000000000000
  if exponent = 0x7FF then none
  else if exponent = 0 then some ⟨negative, fraction, -1074⟩
  else some ⟨negative, 0x10000000000000 + fraction, (exponent : Int) - 1075⟩

/-- The whole number nearest to `n / d`, the larger one of two. -/
def roundDiv (n d : Nat) : Nat := (2 * n + d) / (2 * d)

/-- The places behind the point. -/
def places : Nat := 10

/-- The units of the last place in one. -/
def scale : Nat := Nat.pow 10 places

/-- The magnitude of a value in units of the last place. -/
def Exact.units (x : Exact) : Nat :=
  match x.exponent with
  | .ofNat q => x.mantissa * Nat.pow 2 q * scale
  | .negSucc q => roundDiv (x.mantissa * scale) (Nat.pow 2 (q + 1))

/-- The last `k` digits of `n`, with leading zeros. -/
def lastDigits : Nat → Nat → List Char
  | 0, _ => []
  | k + 1, n => lastDigits k (n / 10) ++ [Nat.digitChar (n % 10)]

/-- A text without the zeros at its end. -/
def dropFinalZeros (text : List Char) : List Char :=
  (text.reverse.dropWhile (· = '0')).reverse

/-- The text of a number of units of the last place. -/
def renderUnits (negative : Bool) (units : Nat) : List Char :=
  let fraction := dropFinalZeros (lastDigits places (units % scale))
  (if negative && units ≠ 0 then ['-'] else []) ++
    Nat.toDigits 10 (units / scale) ++
    (if fraction = [] then [] else '.' :: fraction)

/-- The text of a double. -/
def render (x : Float) : List Char :=
  match Exact.ofFloat? x with
  | some v => renderUnits v.negative v.units
  | none => (if x.isNaN then "NaN" else if x < 0 then "-inf" else "inf").toList

/-- The text of a double, as a string. -/
def text (x : Float) : String := String.ofList (render x)

/-! ## Rounding and digits -/

/-- Rounding misses by at most half a unit, and a half goes up. -/
theorem roundDiv_bounds (n : Nat) {d : Nat} (h : 0 < d) :
    2 * (roundDiv n d * d) ≤ 2 * n + d ∧ 2 * n + d < 2 * (roundDiv n d * d) + 2 * d := by
  have hd : 0 < 2 * d := by omega
  have h₁ : roundDiv n d * (2 * d) ≤ 2 * n + d := Nat.div_mul_le_self _ _
  have h₂ : 2 * n + d < roundDiv n d * (2 * d) + 2 * d := Nat.lt_div_mul_add hd
  rw [Nat.mul_left_comm] at h₁ h₂
  exact ⟨h₁, h₂⟩

theorem length_lastDigits (k n : Nat) : (lastDigits k n).length = k := by
  induction k generalizing n with
  | zero => rfl
  | succ k ih => simp [lastDigits, ih]

/-- The last digits spell the remainder. -/
theorem ofDigitChars_lastDigits (k n : Nat) :
    Nat.ofDigitChars 10 (lastDigits k n) 0 = n % Nat.pow 10 k := by
  induction k generalizing n with
  | zero => exact (Nat.mod_one n).symm
  | succ k ih =>
    have hlt : n % 10 < 10 := Nat.mod_lt _ (by omega)
    rw [lastDigits, Nat.ofDigitChars_append, ih, Nat.ofDigitChars_cons_digitChar_of_lt_ten hlt,
      Nat.ofDigitChars_nil, show Nat.pow 10 (k + 1) = 10 * Nat.pow 10 k from Nat.pow_succ',
      Nat.mod_mul]
    omega

end Reckoner.Decimal
