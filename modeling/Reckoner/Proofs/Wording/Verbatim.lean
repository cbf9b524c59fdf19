import Reckoner.Answer
import Reckoner.Proofs.Outcome
import Reckoner.Proofs.Wording.Calculation
import Reckoner.Proofs.Wording.Equation

/-!
# Calculations without words

A text of digits, signs and blanks words the calculation that it is: no pass finds anything in it to
replace, and only the blanks change (`toExpression_of_verbatim`). So it is read as the calculation
that is made of it (`read_toExpression`), and answered by its value (`exists_answerArithmetic`).
-/

namespace Reckoner

namespace Wording

open Text Unicode

/-- Only characters of calculations stand in a text, and blanks. -/
def Verbatim (text : List Char) : Prop :=
  ∀ c ∈ text, isExpressionChar c = true ∨ isBlank c = true

/-- The characters of calculations stand before the letters. -/
theorem toNat_lt_of_isExpressionChar {c : Char} (h : isExpressionChar c = true) :
    c.toNat < 0x41 := by
  have signs : "+-*/().%".toList.all (fun c => decide (c.toNat < 0x41)) = true := by decide
  obtain h | h := (Bool.or_eq_true _ _).mp h
  · have bounds : 48 ≤ c.toNat ∧ c.toNat ≤ 57 := Char.isDigit_iff_toNat.1 h
    omega
  · simpa using List.all_eq_true.1 signs c (List.contains_iff_mem.1 h)

theorem lower_of_isExpressionChar {c : Char} (h : isExpressionChar c = true) : lower c = [c] := by
  have hlt := toNat_lt_of_isExpressionChar h
  have hne : c ≠ '\u0130' := by
    rintro rfl
    exact absurd hlt (by decide)
  have first : Ascending 0x41 (caseRuns.runs.map fun r => (r.first, r.last)) := by decide +kernel
  exact lower_eq_self hne fun r hr =>
    .inl (Nat.lt_of_lt_of_le hlt (first.le_of_mem (List.mem_map_of_mem hr)))

namespace Verbatim

variable {text : List Char}

theorem isLower_eq_false (h : Verbatim text) {c : Char} (hc : c ∈ text) : c.isLower = false := by
  obtain hc | hc := h c hc
  · refine Bool.eq_false_iff.2 fun hlower => ?_
    have := toNat_of_isLower hlower
    have := toNat_lt_of_isExpressionChar hc
    omega
  · exact isLower_eq_false_of_isBlank hc

/-- There are neither capitals nor typographic signs. -/
theorem plain_eq (h : Verbatim text) : plain text = text := by
  have signs : ['×', '÷', '−'].all (fun d => !(isExpressionChar d || isBlank d)) = true := by decide
  have stays : ∀ c ∈ text, (lower c).map plainSign = [c] := by
    intro c hc
    have sign : plainSign c = c := by
      have hmem : c ∉ ['×', '÷', '−'] := fun hmem => by
        have none_of := List.all_eq_true.1 signs c hmem
        simp only [Bool.not_eq_true', Bool.or_eq_false_iff] at none_of
        simpa [none_of] using h c hc
      simp only [List.mem_cons, List.not_mem_nil, or_false, not_or] at hmem
      obtain ⟨cross, obelus, dash⟩ := hmem
      simp [plainSign]
    have letter : lower c = [c] := (h c hc).elim lower_of_isExpressionChar lower_of_isBlank
    rw [letter, List.map_singleton, sign]
  rw [plain, List.map_flatMap]
  clear h
  induction text with
  | nil => rfl
  | cons c text ih =>
    rw [List.flatMap_cons, stays c List.mem_cons_self,
      ih fun d hd => stays d (List.mem_cons_of_mem _ hd), List.singleton_append]

/-- There is nothing to replace. -/
theorem expressionRule_eq_none (h : Verbatim text) {b : Option Char} {pre post : List Char}
    {c : Char} (htext : text = pre ++ c :: post) : expressionRule b (c :: post) = none := by
  have hlower : c.isLower = false := h.isLower_eq_false (by simp [htext])
  have percent : percentOfRule b (c :: post) = none := by
    refine Option.eq_none_iff_forall_ne_some.2 fun hit hhit => ?_
    obtain ⟨gap, rest, hpost, -⟩ := percentOfRule_eq_some_iff.1 hhit
    have letter : 'o' ∈ text := by
      rw [htext, hpost]
      simp
    exact absurd (h.isLower_eq_false letter) (by decide)
  rw [expressionRule, Rule.orElse, percent, vocabularyRule_eq_none fits_expression hlower]
  rfl

end Verbatim

/-- **A text of digits, signs and blanks is its own calculation**, with single spaces for the
blanks. -/
theorem toExpression_of_verbatim {text : List Char} (h : Verbatim text) :
    toExpression text = squeeze false false text := by
  have commas : ',' ∉ text := fun hmem => absurd (h ',' hmem) (by decide)
  have copied : expressionRule.apply (text ++ []) = text ++ [] :=
    Rule.applyFrom_append fun pre c post htext => by
      rw [List.append_nil]
      exact h.expressionRule_eq_none htext
  have crosses : applyCrosses none false (text ++ []) = text ++ [] :=
    applyCrosses_append (fun c hc => h.isLower_eq_false hc) none false []
  rw [List.append_nil] at copied crosses
  have kept : text.filter (fun c => isExpressionChar c || isBlank c) = text :=
    List.filter_eq_self.2 fun c hc => (Bool.or_eq_true _ _).mpr (h c hc)
  simp only [toExpression, h.plain_eq, dropThousands_eq_self commas, applyNumerals_applyPhrases,
    copied, crosses, kept]

/-- The tokens of a calculation without words are those of its text. -/
theorem read_toExpression {text : List Char} (h : Verbatim text) :
    Token.read (toExpression text) = Token.read text := by
  rw [toExpression_of_verbatim h, Token.read, filter_squeeze, Token.read]

end Wording

/-! ## Answers -/

/-- A calculation without words is answered by the value of its text. -/
theorem exists_answerArithmetic {text : List Char} (h : Wording.Verbatim text) {x : Float}
    (hx : evaluateText text = .ok x) :
    ∃ r, answerArithmetic text = .ok r ∧ r.result = Decimal.text x := by
  obtain ⟨tokens, htokens, hvalue⟩ := bind_eq_ok.1 hx
  simp only [answerArithmetic, Wording.read_toExpression h, htokens, hvalue, ok_bind]
  exact ⟨_, rfl, rfl⟩

/-- What is answered is the text of a value. -/
theorem evaluate_of_answerArithmetic {text : List Char} {r : Answer}
    (h : answerArithmetic text = .ok r) :
    ∃ tokens x, evaluate tokens = .ok x ∧ r.result = Decimal.text x := by
  obtain ⟨tokens, -, h⟩ := bind_eq_ok.1 h
  obtain ⟨x, hx, h⟩ := bind_eq_ok.1 h
  cases h
  exact ⟨tokens, x, hx, rfl⟩

end Reckoner
