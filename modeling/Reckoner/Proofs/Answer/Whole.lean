import Reckoner.Proofs.Answer.Shown
import Reckoner.Proofs.Expression.Whole

/-!
# Answers to calculations with whole numbers

The text of a calculation with whole numbers is read as its tree over doubles (`Whole.read_text`),
and a whole number is shown as it is written (`text_of_isExact`). Since nothing is rounded on the way
while all parts are bounded, the answer is the text of the exact value (`answerArithmetic_whole`).
-/

namespace Reckoner

open Decimal Double Text Token Unicode Wording

/-! ## Reading -/

/-- Two operands and the sign between them are read one after the other. -/
theorem ofPieces_binary {l m : Level} {left : Expression l} {right : Expression m} {a b : List Char}
    (op : Operator) (ha : ofPieces true (pieces isLiteralChar a) = .ok left.tokens)
    (hb : ofPieces true (pieces isLiteralChar b) = .ok right.tokens) :
    ofPieces true (pieces isLiteralChar (a ++ op.symbol :: b)) =
      .ok (left.tokens ++ .operator op :: right.tokens) := by
  have hop : isLiteralChar op.symbol = false := by cases op <;> rfl
  rw [pieces_append_single hop, ofPieces_append ha, left.expectsAfter_tokens,
    ofPieces_single (by simp) (ofSymbol?_symbol op), expectsOperand, hb]
  rfl

theorem Numeral.isDecimal (n : Numeral) : IsDecimal n.digits ⟨n.digits, []⟩ :=
  .whole n.ne_nil n.all_isDigit

namespace Whole

theorem ofPieces_text {l : Level} (e : Whole l) :
    ofPieces true (pieces isLiteralChar e.text) = .ok e.rounded.tokens := by
  induction e with
  | literal n =>
    rw [text, pieces_decimal n.isDecimal, ofPieces, readLiteral_decimal n.isDecimal]
    rfl
  | negative n =>
    rw [text, pieces_cons_single rfl, pieces_decimal n.isDecimal, ofPieces,
      readLiteral_decimal n.isDecimal]
    rfl
  | parentheses e ih =>
    have hopen : true = true → '(' ≠ '-' := fun _ => by decide
    rw [text, List.cons_append, pieces_cons_single rfl, pieces_append_single rfl,
      ofPieces_single hopen (t := .opening) rfl, expectsOperand, ofPieces_append ih,
      e.rounded.expectsAfter_tokens, ofPieces_single (t := .closing) (by simp) rfl]
    rfl
  | ofPrimary e ih | ofProduct e ih => exact ih
  | mul left right ihl ihr => exact ofPieces_binary .times ihl ihr
  | add left right ihl ihr => exact ofPieces_binary .plus ihl ihr
  | sub left right ihl ihr => exact ofPieces_binary .minus ihl ihr

theorem isExpressionChar_of_mem_text {l : Level} {e : Whole l} {c : Char} (h : c ∈ e.text) :
    isExpressionChar c = true := by
  have digit {n : Numeral} (h : c ∈ n.digits) : isExpressionChar c = true := by
    rw [isExpressionChar, List.all_eq_true.1 n.all_isDigit c h, Bool.true_or]
  have binary {a b : List Char} {d : Char} (h : c ∈ a ++ d :: b) (hd : isExpressionChar d = true)
      (ha : c ∈ a → isExpressionChar c = true) (hb : c ∈ b → isExpressionChar c = true) :
      isExpressionChar c = true := by
    obtain h | rfl | h := (List.mem_append.1 h).imp_right List.mem_cons.1
    · exact ha h
    · exact hd
    · exact hb h
  induction e with
  | literal n => exact digit h
  | negative n =>
    obtain rfl | h := List.mem_cons.1 h
    · decide
    · exact digit h
  | parentheses e ih =>
    obtain rfl | h := List.mem_cons.1 h
    · decide
    · exact binary (b := []) h (by decide) ih (by simp)
  | ofPrimary e ih | ofProduct e ih => exact ih h
  | mul left right ihl ihr | add left right ihl ihr | sub left right ihl ihr =>
    exact binary h (by decide) ihl ihr

theorem text_ne_nil {l : Level} (e : Whole l) : e.text ≠ [] := by
  induction e with
  | literal n => exact n.ne_nil
  | ofPrimary e ih | ofProduct e ih => exact ih
  | _ => simp [text]

variable {text : List Char} {e : Whole .sum}

/-- **A text is read as the calculation that it is**, wherever blanks stand in it. -/
theorem read_text (h : text.filter (!isBlank ·) = e.text) :
    Token.read text = .ok e.rounded.tokens := by
  rw [read_eq_ofPieces h e.text_ne_nil, e.ofPieces_text]

theorem verbatim (h : text.filter (!isBlank ·) = e.text) : Verbatim text := by
  intro c hc
  cases hblank : isBlank c with
  | true => exact .inr rfl
  | false =>
    refine .inl (isExpressionChar_of_mem_text (e := e) ?_)
    rw [← h]
    exact List.mem_filter.2 ⟨hc, by rw [hblank]; rfl⟩

end Whole

/-! ## Showing -/

/-- A whole number of units has nothing behind the point. -/
theorem renderUnits_whole (b : Bool) (n : ℕ) :
    renderUnits b (n * scale) = (if b && n ≠ 0 then ['-'] else []) ++ Nat.toDigits 10 n := by
  have behind : dropFinalZeros (lastDigits places (n * scale % scale)) = [] := by
    rw [Nat.mul_mod_left]
    rfl
  have before : n * scale / scale = n := Nat.mul_div_cancel n scale_pos
  have sign : n * scale ≠ 0 ↔ n ≠ 0 := by
    rw [Nat.mul_ne_zero_iff]
    exact and_iff_left scale_pos.ne'
  simp only [renderUnits, behind, before, sign, if_true, List.append_nil]

/-- **A whole number is shown as it is written.** -/
theorem text_of_isExact {x : Float} {n : ℤ} (h : IsExact x n) : Decimal.text x = toString n := by
  have units : shownUnits x = n.natAbs * scale :=
    shownUnits_of_nat (by rw [h.value_eq, Nat.cast_natAbs, Int.cast_abs])
  have sign : decide (value x < 0) = decide (n < 0) := by
    rw [h.value_eq]
    exact decide_eq_decide.2 Int.cast_lt_zero
  rw [Decimal.text, render_of_isFinite h.isFinite, units, sign, renderUnits_whole]
  cases n with
  | ofNat k =>
    have nonneg : ¬Int.ofNat k < 0 := not_lt.2 (Int.natCast_nonneg k)
    rw [decide_eq_false nonneg]
    exact Nat.repr_eq_ofList_toDigits.symm
  | negSucc k =>
    have shown : toString (Int.negSucc k) = "-" ++ Nat.repr (k + 1) := rfl
    rw [shown, Nat.repr_eq_ofList_toDigits, decide_eq_true (Int.negSucc_lt_zero k),
      Int.natAbs_negSucc, Bool.true_and, decide_eq_true (Nat.succ_ne_zero k), if_pos rfl]
    exact String.ofList_append

/-! ## Answers -/

/-- **Calculations with whole numbers are exact**: while no part of one has a value beyond `2 ^ 53`,
it is answered by the text of its exact value, wherever blanks stand in it. -/
theorem answerArithmetic_whole {text : List Char} {e : Whole .sum}
    (htext : text.filter (!isBlank ·) = e.text) (bounded : e.Bounded) :
    ∃ r, answerArithmetic text = .ok r ∧ r.result = toString e.value := by
  obtain ⟨x, hx, exact⟩ := Whole.exists_valueOver_rounded bounded 1
  have value : evaluateText text = .ok x := by
    rw [evaluateText, e.read_text htext, ok_bind, evaluate_eq_outcome e.rounded.tokens_ne_nil,
      e.rounded.outcome_empty_tokens, hx, ok_bind, checkFinite, if_pos exact.isFinite]
  obtain ⟨r, hr, hresult⟩ := exists_answerArithmetic (e.verbatim htext) value
  exact ⟨r, hr, hresult.trans (text_of_isExact exact)⟩

/-- The calculation `12*(3--4)-100`. -/
def Whole.groupLessHundred : Whole .sum :=
  .sub
    (.ofProduct (.mul (.ofPrimary (.literal ⟨['1', '2'], by decide, by decide⟩))
      (.parentheses (.sub (.ofProduct (.ofPrimary (.literal ⟨['3'], by decide, by decide⟩)))
        (.ofPrimary (.negative ⟨['4'], by decide, by decide⟩))))))
    (.ofPrimary (.literal ⟨['1', '0', '0'], by decide, by decide⟩))

theorem answerArithmetic_groupLessHundred :
    "12 * (3 - -4) - 100".toList.filter (!isBlank ·) = Whole.groupLessHundred.text ∧
      Whole.groupLessHundred.Bounded ∧
      ∃ r, answerArithmetic "12 * (3 - -4) - 100".toList = .ok r ∧ r.result = "-16" :=
  have text : "12 * (3 - -4) - 100".toList.filter (!isBlank ·) = Whole.groupLessHundred.text := by
    decide +kernel
  have bounded : Whole.groupLessHundred.Bounded := by decide
  ⟨text, bounded, answerArithmetic_whole text bounded⟩

end Reckoner
