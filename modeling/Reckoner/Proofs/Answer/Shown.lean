import Reckoner.Proofs.Answer.Negation
import Reckoner.Proofs.Decimal.Shown
import Reckoner.Proofs.Token.Literal
import Reckoner.Proofs.Wording.Verbatim

/-!
# Answers that are asked again

What the calculator shows is read by it, as a double that is shown in the same way, for every finite
double (`evaluateText_render`). So an answer, given as a question, is its own answer
(`answer_stable`).
-/

namespace Reckoner

open Decimal Double Wording

/-! ## Numbers that are shown -/

theorem evaluateText_of_read {text : List Char} {x : Float} (h : Token.read text = .ok [.number x])
    (hx : x.isFinite = true) : evaluateText text = .ok x := by
  have single : evaluate [.number x] = checkFinite x := rfl
  rw [evaluateText, h, ok_bind, single, checkFinite, if_pos hx]

/-- **What is shown of a double is read as a double that is shown in the same way.** -/
theorem evaluateText_render {x : Float} (hx : x.isFinite = true) :
    ∃ y, y.isFinite = true ∧ evaluateText (render x) = .ok y ∧ render y = render x := by
  have hd := isDecimal_renderUnits (shownUnits x)
  have near := isNearest_shown x
  generalize shownDigits (shownUnits x) = d at *
  obtain ⟨units, positive⟩ := shownUnits_of_isNearest hx near
  have finite := near.isFinite
  have finite_neg : (-d.value 0).isFinite = true := by rw [isFinite_neg, finite]
  rw [render_of_isFinite hx]
  by_cases h0 : shownUnits x = 0
  · -- nothing is shown but a zero, without a sign
    have no_sign (b : Bool) : renderUnits b (shownUnits x) = renderUnits false (shownUnits x) := by
      cases b with
      | false => rfl
      | true => rw [renderUnits_negative, if_pos h0]
    refine ⟨d.value 0, finite, ?_, ?_⟩
    · rw [no_sign]
      exact evaluateText_of_read (Token.read_decimal hd) finite
    · rw [render_of_isFinite finite, units]
      exact (no_sign _).trans (no_sign _).symm
  have positive := positive h0
  by_cases hneg : value x < 0
  · refine ⟨-d.value 0, finite_neg, ?_, ?_⟩
    · rw [decide_eq_true hneg, renderUnits_negative, if_neg h0]
      exact evaluateText_of_read (Token.read_neg_decimal hd) finite_neg
    · have below : value (-d.value 0) < 0 := by
        rw [value_neg]
        exact neg_neg_of_pos positive
      rw [render_of_isFinite finite_neg, shownUnits_neg, units, decide_eq_true hneg,
        decide_eq_true below]
  · refine ⟨d.value 0, finite, ?_, ?_⟩
    · rw [decide_eq_false hneg]
      exact evaluateText_of_read (Token.read_decimal hd) finite
    · rw [render_of_isFinite finite, units, decide_eq_false hneg, decide_eq_false positive.not_gt]

/-! ## Answers -/

/-- A finite double is shown by characters of calculations. -/
theorem verbatim_render {x : Float} (hx : x.isFinite = true) : Verbatim (render x) := by
  intro c hc
  left
  have hd := isDecimal_renderUnits (shownUnits x)
  have shown (h : c ∈ renderUnits false (shownUnits x)) : isExpressionChar c = true := by
    obtain digit | point := (Bool.or_eq_true _ _).mp (hd.isLiteralChar h)
    · rw [isExpressionChar, digit, Bool.true_or]
    · exact of_decide_eq_true point ▸ by decide
  rw [render_of_isFinite hx] at hc
  cases hneg : decide (value x < 0) with
  | false => exact shown (hneg ▸ hc)
  | true =>
    rw [hneg, renderUnits_negative] at hc
    split at hc
    · exact shown hc
    · obtain rfl | hc := List.mem_cons.1 hc
      · decide
      · exact shown hc

/-- **What is shown is stable**: a finite double is read back as one that is shown in the same way,
and an answer that is asked again is its own answer. -/
theorem answer_stable :
    (∀ x : Float, x.isFinite = true → ∃ y,
      evaluateText (render x) = .ok y ∧ render y = render x) ∧
    ∀ text r, answerArithmetic text = .ok r →
      ∃ r', answerArithmetic r.result.toList = .ok r' ∧ r'.result = r.result := by
  constructor
  · intro x hx
    obtain ⟨y, -, hy⟩ := evaluateText_render hx
    exact ⟨y, hy⟩
  · intro text r h
    obtain ⟨tokens, x, htokens, hresult⟩ := evaluate_of_answerArithmetic h
    have hx := isFinite_of_evaluate_eq_ok htokens
    obtain ⟨y, -, hy, same⟩ := evaluateText_render hx
    obtain ⟨r', hr', hresult'⟩ := exists_answerArithmetic (verbatim_render hx) hy
    rw [hresult, Decimal.text, String.toList_ofList]
    refine ⟨r', hr', ?_⟩
    rw [hresult', Decimal.text, same]

theorem answer_stable_third :
    (1 / 3 : Float).isFinite = true ∧
      (∃ y, evaluateText (render (1 / 3)) = .ok y ∧ render y = render (1 / 3)) ∧
      ∃ r r', answerArithmetic "1/3".toList = .ok r ∧
        answerArithmetic r.result.toList = .ok r' ∧ r'.result = r.result := by
  have finite : (1 / 3 : Float).isFinite = true := by decide +kernel
  refine ⟨finite, answer_stable.1 _ finite, ?_⟩
  have verbatim : Verbatim "1/3".toList := by
    have chars : "1/3".toList.all isExpressionChar = true := by decide
    exact fun c hc => .inl (List.all_eq_true.1 chars c hc)
  have answered : (evaluateText "1/3".toList).isOk = true := by decide +kernel
  cases value : evaluateText "1/3".toList with
  | error fault =>
    rw [value] at answered
    cases answered
  | ok x =>
    obtain ⟨r, hr, -⟩ := exists_answerArithmetic verbatim value
    obtain ⟨r', hr', same⟩ := answer_stable.2 _ _ hr
    exact ⟨r, r', hr, hr', same⟩

end Reckoner
