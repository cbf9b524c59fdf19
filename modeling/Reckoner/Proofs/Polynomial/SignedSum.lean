import Mathlib
import Reckoner.Polynomial.Reader
import Reckoner.Proofs.Token.Reading

/-!
# Signed sums

The sums that sides of equations are made of: terms with signs, each a numeral, or an unknown with
an optional numeral before it and an optional power behind it. The coefficients of a sum are whole
numbers (`SignedSum.coeff`). Beside digits, signs, the unknown, its power sign and stars no character
stands in the text of a sum (`SignedSum.not_mem_text`), so what separates sums and terms is found.
-/

namespace Reckoner

open Reckoner.Polynomial

/-- A numeral: digits, at least one. -/
structure Numeral where
  digits : List Char
  ne_nil : digits ≠ []
  all_isDigit : digits.all Char.isDigit = true

/-- The number that a numeral shows. -/
def Numeral.value (n : Numeral) : ℕ := Nat.ofDigitChars 10 n.digits 0

/-- A term without its sign. -/
inductive Summand
  | constant (n : Numeral)
  /-- The unknown, with a numeral before it, which a star may follow, and a power behind it. -/
  | unknown (before : Option (Numeral × Bool)) (power : Option {n : Numeral // n.value ≤ maxPower})

namespace Summand

/-- The text before an unknown; the flag says whether the stars are left in. -/
def beforeText (stars : Bool) : Option (Numeral × Bool) → List Char
  | none => []
  | some (n, star) => n.digits ++ if (stars && star) = true then ['*'] else []

/-- The text behind an unknown. -/
def powerText : Option {n : Numeral // n.value ≤ maxPower} → List Char
  | none => []
  | some k => '^' :: k.1.digits

/-- The text of a term; the flag says whether the stars are left in. -/
def textWith (stars : Bool) : Summand → List Char
  | constant n => n.digits
  | unknown before power => beforeText stars before ++ 'x' :: powerText power

/-- The power of the unknown in a term. -/
def power : Summand → ℕ
  | constant _ => 0
  | unknown _ none => 1
  | unknown _ (some k) => k.1.value

/-- The coefficient of a term. -/
def coefficient : Summand → ℕ
  | constant n => n.value
  | unknown none _ => 1
  | unknown (some (n, _)) _ => n.value

end Summand

/-- Terms with signs; the first one may lack its sign. -/
structure SignedSum where
  sign : Option Sign
  first : Summand
  rest : List (Sign × Summand)

/-- The character of a sign. -/
def Polynomial.Sign.char : Sign → Char
  | .plus => '+'
  | .minus => '-'

/-- A whole number with a sign. -/
def Polynomial.Sign.applyInt : Sign → ℤ → ℤ
  | .plus, n => n
  | .minus, n => -n

namespace SignedSum

/-- The terms of a sum with their signs. -/
def terms (s : SignedSum) : List (Sign × Summand) := (s.sign.getD .plus, s.first) :: s.rest

/-- The text of terms, each behind its sign. -/
def textOf (stars : Bool) (ts : List (Sign × Summand)) : List Char :=
  ts.flatMap fun t => t.1.char :: t.2.textWith stars

/-- The text of a sum; the flag says whether the stars are left in. -/
def textWith (stars : Bool) (s : SignedSum) : List Char :=
  s.sign.toList.map Sign.char ++ (s.first.textWith stars ++ textOf stars s.rest)

/-- The text of a sum. -/
def text (s : SignedSum) : List Char := s.textWith true

/-- The coefficient of a power in a list of terms. -/
def coeffOf (ts : List (Sign × Summand)) (k : ℕ) : ℤ :=
  (ts.map fun t => if t.2.power = k then t.1.applyInt t.2.coefficient else 0).sum

/-- The sum of the coefficients of terms, all taken positive. -/
def weightOf (ts : List (Sign × Summand)) : ℕ := (ts.map fun t => t.2.coefficient).sum

/-- The coefficient of a power in a sum. -/
def coeff (s : SignedSum) : ℕ → ℤ := coeffOf s.terms

/-- The sum of the coefficients of a sum, all taken positive. -/
def weight (s : SignedSum) : ℕ := weightOf s.terms

end SignedSum

/-! ## The characters of a sum -/

/-- A character that stands in terms; the flag says whether stars do. -/
def IsTermChar (stars : Bool) (c : Char) : Prop :=
  c.isDigit = true ∨ c = 'x' ∨ c = '^' ∨ stars = true ∧ c = '*'

instance (stars : Bool) (c : Char) : Decidable (IsTermChar stars c) :=
  inferInstanceAs (Decidable (_ ∨ _ ∨ _ ∨ _))

theorem Numeral.isTermChar (stars : Bool) {n : Numeral} {c : Char} (h : c ∈ n.digits) :
    IsTermChar stars c :=
  .inl (List.all_eq_true.1 n.all_isDigit c h)

theorem Summand.isTermChar {stars : Bool} {t : Summand} {c : Char} (h : c ∈ t.textWith stars) :
    IsTermChar stars c := by
  cases t with
  | constant n => exact Numeral.isTermChar stars h
  | unknown before power =>
    simp only [textWith, List.mem_append, List.mem_cons] at h
    obtain h | rfl | h := h
    · cases before with
      | none => cases h
      | some p =>
        obtain h | h := List.mem_append.1 h
        · exact Numeral.isTermChar stars h
        · split at h
          · rename_i hstars
            exact .inr (.inr (.inr ⟨(Bool.and_eq_true _ _ ▸ hstars).1, List.mem_singleton.1 h⟩))
          · cases h
    · exact .inr (.inl rfl)
    · cases power with
      | none => cases h
      | some k =>
        obtain rfl | h := List.mem_cons.1 h
        · exact .inr (.inr (.inl rfl))
        · exact Numeral.isTermChar stars h

theorem SignedSum.mem_text {stars : Bool} {s : SignedSum} {c : Char} (h : c ∈ s.textWith stars) :
    IsTermChar stars c ∨ ∃ sign : Sign, c = sign.char := by
  simp only [textWith, textOf, List.mem_append, List.mem_map, List.mem_flatMap,
    List.mem_cons] at h
  obtain ⟨sign, -, rfl⟩ | h | ⟨t, -, rfl | h⟩ := h
  · exact .inr ⟨sign, rfl⟩
  · exact .inl (Summand.isTermChar h)
  · exact .inr ⟨t.1, rfl⟩
  · exact .inl (Summand.isTermChar h)

/-- Characters beside those of terms and the signs do not stand in sums. -/
theorem SignedSum.not_mem_text {stars : Bool} (s : SignedSum) {c : Char}
    (hc : ¬IsTermChar stars c) (hsign : c ≠ '+' ∧ c ≠ '-') : c ∉ s.textWith stars := by
  intro h
  obtain h | ⟨sign, rfl⟩ := mem_text h
  · exact hc h
  · cases sign
    · exact hsign.1 rfl
    · exact hsign.2 rfl

end Reckoner
