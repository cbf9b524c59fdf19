import Reckoner.Proofs.Answer.Alphabets
import Reckoner.Proofs.Decimal.Places
import Reckoner.Proofs.Text.Unbroken
import Reckoner.Proofs.Wording.Calculation

/-!
# The sentences of an answer

Whatever stands in a text, every sentence that is said about it is one line: the steps of an answer
and its result (`narrated_of_answerIn`) and the message of a fault (`unbroken_message`). What such a
sentence repeats of the text is made of the characters of calculations or of equations, and what it
shows besides are numbers, tokens and polynomials.

How many steps lead to an answer depends on its mode and, for an equation, on the degree of the
difference of its sides; the last step says the result (`Narrated`).
-/

namespace Reckoner

open Text Unicode

/-! ## What is shown -/

namespace Wording

variable {c : Char}

theorem isBreaking_of_isExpressionChar (h : isExpressionChar c = true) : isBreaking c = false := by
  have signs : Unbroken "+-*/().%" := by decide
  obtain digit | sign := (Bool.or_eq_true _ _).mp h
  · exact isBreaking_of_isDigit digit
  · exact signs c (List.contains_iff_mem.1 sign)

theorem isBreaking_of_isEquationChar (h : isEquationChar c = true) : isBreaking c = false := by
  have signs : Unbroken "x^=" := by decide
  obtain h | h := isEquationChar_cases h
  · exact isBreaking_of_isExpressionChar h
  · exact signs c h

/-- The blanks of a calculation are spaces. -/
theorem unbroken_toExpression (text : List Char) :
    Unbroken (String.ofList (toExpression text)) := by
  rw [unbroken_ofList]
  intro c hc
  cases blank : isBlank c with
  | true =>
    obtain rfl := eq_space_of_mem_squeeze hc blank
    decide
  | false =>
    have kept : c ∈ (toExpression text).filter (!isBlank ·) :=
      List.mem_filter.2 ⟨hc, by rw [blank, Bool.not_false]⟩
    exact isBreaking_of_isExpressionChar (isExpressionChar_of_mem kept)

theorem unbroken_of_isEquationChar {side : List Char} (h : ∀ c ∈ side, isEquationChar c = true) :
    Unbroken (String.ofList side) :=
  unbroken_ofList.2 fun c hc => isBreaking_of_isEquationChar (h c hc)

end Wording

namespace Decimal

theorem unbroken_renderUnits (negative : Bool) (n : ℕ) :
    Unbroken (String.ofList (renderUnits negative n)) := by
  have magnitude : ∀ c ∈ renderUnits false n, isBreaking c = false := fun c hc =>
    Wording.isBreaking_of_isExpressionChar
      (Wording.isExpressionChar_of_isLiteralChar ((isDecimal_renderUnits n).isLiteralChar hc))
  rw [unbroken_ofList]
  cases negative with
  | false => exact magnitude
  | true =>
    rw [renderUnits_negative]
    split
    · exact magnitude
    · exact List.forall_mem_cons.2 ⟨by decide, magnitude⟩

/-- Every double is shown on one line. -/
theorem unbroken_text (x : Float) : Unbroken (text x) := by
  rw [text, render]
  split
  · exact unbroken_renderUnits _ _
  · split
    · decide
    · split <;> decide

end Decimal

theorem Token.unbroken_render (ts : List Token) : Unbroken (render ts) := by
  have space : Unbroken " " := by decide
  refine space.intercalate (List.forall_mem_map.2 fun t _ => ?_)
  cases t with
  | number x => exact Decimal.unbroken_text x
  | operator op => cases op <;> decide
  | percent | opening | closing => decide

namespace Polynomial

theorem unbroken_renderTerm (k : ℕ) (c : Float) : Unbroken (renderTerm k c) := by
  have number := Decimal.unbroken_text c.abs
  cases k with
  | zero => exact number
  | succ k =>
    refine Unbroken.append ?_ ?_
    · split
      · decide
      · exact number
    · split
      · decide
      · exact Unbroken.append (by decide) (unbroken_toString _)

theorem unbroken_render (p : Polynomial) : Unbroken p.render := by
  rw [render]
  split
  · decide
  · rename_i k c rest _
    have sign : Unbroken (if c < 0 then "-" else "") := by
      split <;> decide
    refine (sign.append (unbroken_renderTerm k c)).append (Unbroken.join ?_)
    rw [List.forall_mem_map]
    rintro ⟨k, c⟩ -
    have sign : Unbroken (if c < 0 then " - " else " + ") := by
      split <;> decide
    exact sign.append (unbroken_renderTerm k c)

end Polynomial

theorem Solution.unbroken_answer (s : Solution) : Unbroken s.answer := by
  have named (x : Float) : Unbroken ("x = " ++ Decimal.text x) :=
    Unbroken.append (by decide) (Decimal.unbroken_text x)
  cases s with
  | everything | nothing => decide
  | single x => exact named x
  | double x => exact (named x).append (by decide)
  | reals x₁ x₂ => exact ((named x₁).append (by decide)).append (Decimal.unbroken_text x₂)
  | complex re im =>
    have im := Decimal.unbroken_text im.abs
    have re := Decimal.unbroken_text re
    exact (((((((Unbroken.append (by decide) re).append (by decide)).append im).append
      (by decide)).append re).append (by decide)).append im).append (by decide)

/-! ## Messages -/

theorem unbroken_inQuotes {t : List Char} (h : Unbroken (String.ofList t)) : Unbroken (inQuotes t) :=
  (Unbroken.append (by decide) h).append (by decide)

theorem OfEvaluation.unbroken_message {ts : List Token} {f : Fault} (h : OfEvaluation ts f) :
    Unbroken f.message := by
  cases h with
  | missingOperand | divisionByZero | barePercent | unbalanced _ => decide
  | @leftover k =>
    exact Unbroken.append (by decide) ((unbroken_toString k).append (by decide))
  | @notFinite x =>
    exact Unbroken.append (by decide)
      ((Unbroken.append (by decide) (Decimal.unbroken_text x)).append (by decide))

theorem OfAnswer.unbroken_message {f : Fault} (h : OfAnswer f) : Unbroken f.message := by
  have side {t : List Char} (chars : t.all Wording.isEquationChar = true) : Unbroken (inQuotes t) :=
    unbroken_inQuotes (Wording.unbroken_of_isEquationChar (List.all_eq_true.1 chars))
  cases h with
  | evaluation h => exact h.unbroken_message
  | @literal run chars =>
    obtain ⟨-, message⟩ := (OfAnswer.literal chars).message_literal
    rw [message]
    refine Unbroken.append (by decide) (unbroken_inQuotes (unbroken_ofList.2 fun c hc => ?_))
    exact Wording.isBreaking_of_isExpressionChar (List.all_eq_true.1 chars c hc)
  | @leftSide t chars =>
    obtain ⟨-, message⟩ := (OfAnswer.leftSide chars).message_leftSide
    rw [message]
    exact Unbroken.append (by decide) (Unbroken.append (by decide) (side chars))
  | @rightSide t chars =>
    obtain ⟨-, message⟩ := (OfAnswer.rightSide chars).message_rightSide
    rw [message]
    exact Unbroken.append (by decide) (Unbroken.append (by decide) (side chars))
  | degree d =>
    exact Unbroken.append (by decide)
      ((Unbroken.append (by decide) (unbroken_toString d)).append (by decide))
  | bareSign | noUnknown | unrecognised => decide

/-- **The message of a fault is one line**, in every mode. -/
theorem unbroken_message {mode : Mode} {text : List Char} {f : Fault}
    (h : answerIn mode text = .error f) : Unbroken f.message := by
  cases mode with
  | arithmetic =>
    obtain ⟨-, rfl⟩ | faults := fault_of_answerArithmetic h
    · decide
    · exact faults.unbroken_message
  | algebra =>
    obtain ⟨-, rfl⟩ | faults := fault_of_answerAlgebra h
    · decide
    · exact faults.unbroken_message

/-! ## Steps -/

namespace Equation

theorem steps_solveLinear (a b : Float) :
    (solveLinear a b).2.length = 1 ∧ ∀ step ∈ (solveLinear a b).2, Unbroken step := by
  have a_text := Decimal.unbroken_text a
  have b_text := Decimal.unbroken_text b
  rw [solveLinear]
  split
  · split
    · exact ⟨rfl, List.forall_mem_singleton.2 (by decide)⟩
    · exact ⟨rfl, List.forall_mem_singleton.2
        ((Unbroken.append (by decide) b_text).append (by decide))⟩
  · exact ⟨rfl, List.forall_mem_singleton.2
      (((Unbroken.append (by decide) b_text).append (by decide)).append a_text)⟩

theorem unbroken_roots (a b delta : Float) : Unbroken (roots a b delta).2 := by
  have double : Unbroken "Δ = 0 : une racine double" := by decide
  have reals : Unbroken "Δ > 0 : deux racines réelles" := by decide
  have complex : Unbroken "Δ < 0 : deux racines complexes conjuguées" := by decide
  rw [roots]
  dsimp only
  split
  · exact double
  · split
    · exact reals
    · exact complex

theorem steps_solveQuadratic (a b c : Float) :
    (solveQuadratic a b c).2.length = 3 ∧ ∀ step ∈ (solveQuadratic a b c).2, Unbroken step := by
  have coefficients : Unbroken
      ("a = " ++ Decimal.text a ++ ", b = " ++ Decimal.text b ++ ", c = " ++ Decimal.text c) :=
    ((((Unbroken.append (by decide) (Decimal.unbroken_text a)).append (by decide)).append
      (Decimal.unbroken_text b)).append (by decide)).append (Decimal.unbroken_text c)
  have delta : Unbroken ("Discriminant : Δ = b² - 4ac = " ++ Decimal.text (discriminant a b c)) :=
    Unbroken.append (by decide) (Decimal.unbroken_text _)
  exact ⟨rfl, List.forall_mem_cons.2 ⟨coefficients, List.forall_mem_cons.2 ⟨delta,
    List.forall_mem_singleton.2 (unbroken_roots _ _ _)⟩⟩⟩

/-- One step solves an equation of degree one or less, three one of degree two. -/
theorem steps_solvePolynomial {p : Polynomial} {stated : ℕ}
    {s : Solution × List String × Option Float} (h : solvePolynomial p stated = .ok s) :
    (p.degree ≤ 1 ∧ s.2.1.length = 1 ∨ p.degree = 2 ∧ s.2.1.length = 3) ∧
      ∀ step ∈ s.2.1, Unbroken step := by
  obtain ⟨low, rfl⟩ | ⟨two, rfl⟩ := eq_of_solvePolynomial_eq_ok h
  · obtain ⟨length, steps⟩ := steps_solveLinear (p.coeff 1) (p.coeff 0)
    exact ⟨.inl ⟨low, length⟩, steps⟩
  · obtain ⟨length, steps⟩ := steps_solveQuadratic (p.coeff 2) (p.coeff 1) (p.coeff 0)
    exact ⟨.inr ⟨two, length⟩, steps⟩

end Equation

/-! ## Answers -/

/-- How many steps lead to an answer, and what the last one says: three to a calculation, four to an
equation whose sides differ by a polynomial of degree one or less, and six to one of degree two. -/
inductive Narrated (text : List Char) : Answer → Prop
  | calculation {steps : List String} {result : String} (length : steps.length = 3)
    (last : steps.getLast? = some ("Résultat : " ++ result)) :
    Narrated text ⟨.arithmetic, steps, result⟩
  | equation {left right : List Char} {l r : Polynomial} {steps : List String} {result : String}
    (sides : Equation.sides? (Wording.toEquation text) = some (left, right))
    (left_eq : Polynomial.ofText? left = some l) (right_eq : Polynomial.ofText? right = some r)
    (length : (l.sub r).degree ≤ 1 ∧ steps.length = 4 ∨
      (l.sub r).degree = 2 ∧ steps.length = 6)
    (last : steps.getLast? = some ("Réponse : " ++ result)) :
    Narrated text ⟨.algebra, steps, result⟩

/-- Every step of an answer and its result are one line. -/
structure Answer.IsUnbroken (a : Answer) : Prop where
  steps : ∀ step ∈ a.steps, Unbroken step
  result : Unbroken a.result

section

variable {text : List Char} {a : Answer}

theorem narrated_of_answerArithmetic (h : answerArithmetic text = .ok a) :
    Narrated text a ∧ a.IsUnbroken := by
  obtain ⟨ts, -, h⟩ := bind_eq_ok.1 h
  obtain ⟨x, -, h⟩ := bind_eq_ok.1 h
  cases h
  have result := Decimal.unbroken_text x
  have expression : Unbroken ("Expression : " ++ String.ofList (Wording.toExpression text)) :=
    Unbroken.append (by decide) (Wording.unbroken_toExpression text)
  have tokens : Unbroken ("Jetons : " ++ Token.render ts) :=
    Unbroken.append (by decide) (Token.unbroken_render ts)
  have last : Unbroken ("Résultat : " ++ Decimal.text x) := Unbroken.append (by decide) result
  exact ⟨.calculation rfl rfl, List.forall_mem_cons.2 ⟨expression, List.forall_mem_cons.2 ⟨tokens,
    List.forall_mem_singleton.2 last⟩⟩, result⟩

theorem narrated_of_answerAlgebra (h : answerAlgebra text = .ok a) :
    Narrated text a ∧ a.IsUnbroken := by
  obtain ⟨resolution, solved, h⟩ := bind_eq_ok.1 h
  obtain ⟨left, right, l, r, s, hsides, hl, hr, hs, -⟩ :=
    Equation.exists_sides_of_solve_eq_ok solved
  cases (Equation.solve_of_sides hsides hl hr hs).symm.trans solved
  cases h
  obtain ⟨length, steps⟩ := Equation.steps_solvePolynomial hs
  have result := s.1.unbroken_answer
  obtain ⟨text_eq, -, -⟩ := Equation.sides?_eq_some_iff.1 hsides
  have chars (c : Char) (hc : c ∈ left ++ '=' :: right) : Wording.isEquationChar c = true :=
    Wording.isEquationChar_of_mem (text_eq ▸ hc)
  have statement : Unbroken ("Équation : " ++ String.ofList left ++ " = " ++ String.ofList right) :=
    ((Unbroken.append (by decide)
      (Wording.unbroken_of_isEquationChar fun c hc => chars c (by simp [hc]))).append
        (by decide)).append (Wording.unbroken_of_isEquationChar fun c hc => chars c (by simp [hc]))
  have form : Unbroken ("Forme standard : " ++ (l.sub r).standardForm) :=
    Unbroken.append (by decide) ((l.sub r).unbroken_render.append (by decide))
  have last : Unbroken ("Réponse : " ++ s.1.answer) := Unbroken.append (by decide) result
  refine ⟨.equation hsides hl hr ?_ List.getLast?_concat, ?_, result⟩
  · simp only [List.length_append, List.length_cons, List.length_nil]
    omega
  · intro step hstep
    simp only [List.mem_append, List.mem_cons, List.not_mem_nil, or_false] at hstep
    obtain ((rfl | rfl) | hstep) | rfl := hstep
    · exact statement
    · exact form
    · exact steps step hstep
    · exact last

/-- **The sentences of an answer**: their number and the last one are as the mode has it, and each is
one line. -/
theorem narrated_of_answerIn {mode : Mode} (h : answerIn mode text = .ok a) :
    Narrated text a ∧ a.IsUnbroken := by
  cases mode with
  | arithmetic => exact narrated_of_answerArithmetic h
  | algebra => exact narrated_of_answerAlgebra h

end

end Reckoner
