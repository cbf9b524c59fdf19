import Reckoner.Answer
import Reckoner.Proofs.Evaluation.Negation
import Reckoner.Proofs.Token.Reading

/-!
# A minus before a parenthesis

In a text a minus before a group in parentheses is read as a subtraction from zero. Whether this
negates the group depends on what stands before it. At the start of a text, behind an opening
parenthesis and behind a plus it does, whatever follows but a percent sign. Behind a minus, a star
or a slash the zero becomes the operand of the sign before it and the group is subtracted from the
result, so it does not. `agree_evaluateText_iff` puts these together.
-/

namespace Reckoner

open Double Text Token Unicode

/-- A text whose tokens are those of an expression. -/
def WellFormed (text : List Char) : Prop :=
  ∃ e : Expression .sum, Token.read text = .ok e.tokens

/-- Behind `before`, the first text has a minus before a group that no percent sign follows, where
the second one has the group subtracted from zero, in parentheses. -/
def Negates (before : Option Char) (text text' : List Char) : Prop :=
  ∃ pre inner post : List Char,
    pre.getLast? = before ∧ WellFormed inner ∧ post.head? ≠ some '%' ∧
      text.filter (!isBlank ·) = pre ++ '-' :: '(' :: (inner ++ ')' :: post) ∧
      text'.filter (!isBlank ·) = pre ++ '(' :: '0' :: '-' :: '(' :: (inner ++ ')' :: ')' :: post)

/-! ## The tokens of the two texts -/

/-- The tokens of a part without blanks that is well formed. -/
theorem WellFormed.ofPieces {cs : List Char} (h : WellFormed cs)
    (hb : ∀ c ∈ cs, isBlank c = false) :
    ∃ e : Expression .sum, ofPieces true (pieces Decimal.isLiteralChar cs) = .ok e.tokens := by
  obtain ⟨e, he⟩ := h
  have hf : cs.filter (!isBlank ·) = cs := List.filter_eq_self.2 fun c hc => by simp [hb c hc]
  have hne : cs ≠ [] := by
    rintro rfl
    cases he
  exact ⟨e, read_eq_ofPieces hf hne ▸ he⟩

/-- Behind a text that is empty or ends with an opening parenthesis or a plus, a term starts. -/
theorem opensTerm_of_getLast {pre : List Char} {qs : List Piece} {ts : List Token}
    (hpre : pre.getLast? = none ∨ pre.getLast? = some '(' ∨ pre.getLast? = some '+')
    (h : ofPieces true (pieces Decimal.isLiteralChar pre ++ qs) = .ok ts) :
    ∃ us, ofPieces true (pieces Decimal.isLiteralChar pre) = .ok us ∧ OpensTerm us := by
  have last {c : Char} (hc : pre.getLast? = some c) (hlit : Decimal.isLiteralChar c = false) :
      (pieces Decimal.isLiteralChar pre).getLast? = some (.single c) := by
    obtain ⟨cs, rfl⟩ := List.getLast?_eq_some_iff.1 hc
    rw [pieces_append_single hlit]
    exact List.getLast?_concat
  obtain hc | hc | hc := hpre
  · rw [List.getLast?_eq_none_iff.1 hc]
    exact ⟨[], rfl, .inl rfl⟩
  · have hc := last hc rfl
    obtain ⟨us, hus⟩ := exists_ofPieces h (by simp [hc])
    exact ⟨us, hus, .inr (.inl (exists_append_of_getLast hus hc rfl))⟩
  · have hc := last hc rfl
    obtain ⟨us, hus⟩ := exists_ofPieces h (by simp [hc])
    exact ⟨us, hus, .inr (.inr (exists_append_of_getLast hus hc rfl))⟩

theorem expectsAfter_of_opensTerm {ts : List Token} (h : OpensTerm ts) :
    expectsAfter true ts = true := by
  obtain rfl | ⟨us, rfl⟩ | ⟨us, rfl⟩ := h <;> simp [expectsAfter, expectsOperand]

/-- A text that does not start with a percent sign carries no factor on. -/
theorem ends_factor_of_head {post : List Char} {ts : List Token} (hpost : post.head? ≠ some '%')
    (h : ofPieces false (pieces Decimal.isLiteralChar post) = .ok ts) : Ends .factor ts := by
  cases post with
  | nil =>
    cases h
    trivial
  | cons c cs =>
    by_cases hc : Decimal.isLiteralChar c = true
    · obtain ⟨t, rest, ht⟩ : ∃ t rest,
          Piece.consRun c (pieces Decimal.isLiteralChar cs) = .run t :: rest := by
        unfold Piece.consRun
        split <;> exact ⟨_, _, rfl⟩
      rw [pieces, if_pos hc, ht, ofPieces] at h
      obtain ⟨x, -, h⟩ := bind_eq_ok.1 h
      obtain ⟨us, -, h⟩ := bind_eq_ok.1 h
      cases h
      trivial
    · rw [pieces_cons_single (Bool.eq_false_iff.2 hc)] at h
      cases ht : ofSymbol? c with
      | none => simp [ofPieces, ht] at h
      | some t =>
        rw [ofPieces_single (by simp) ht] at h
        obtain ⟨us, -, h⟩ := bind_eq_ok.1 h
        cases h
        cases t with
        | percent =>
          have : c = '%' := by
            unfold ofSymbol? at ht
            split at ht <;> simp_all
          exact absurd (congrArg some this) hpost
        | operator op => exact (by cases op <;> decide : op.rank < 3)
        | number _ | opening | closing => trivial

/-- **The tokens of the two texts differ in how the group is subtracted from zero.** -/
theorem Negates.exists_tokens {before : Option Char} {text text' : List Char}
    (hn : Negates before text text')
    (hb : before = none ∨ before = some '(' ∨ before = some '+') {ts : List Token}
    (h : Token.read text = .ok ts) :
    ∃ (us vs : List Token) (e : Expression .sum), OpensTerm us ∧ Ends .factor vs ∧
      ts = us ++ (minusGroup e ++ vs) ∧
        Token.read text' = .ok (us ++ (negatedGroup e ++ vs)) := by
  obtain ⟨pre, inner, post, rfl, hinner, hpost, htext, htext'⟩ := hn
  have blank : ∀ c ∈ inner, isBlank c = false := by
    intro c hc
    have hmem : c ∈ text.filter (!isBlank ·) := by
      rw [htext]
      simp [hc]
    simpa using (List.mem_filter.1 hmem).2
  obtain ⟨e, he⟩ := hinner.ofPieces blank
  rw [read_eq_ofPieces htext (by simp), pieces_append_single rfl] at h
  obtain ⟨us, hus, hopens⟩ := opensTerm_of_getLast hb h
  rw [ofPieces_append hus, expectsAfter_of_opensTerm hopens] at h
  obtain ⟨ws, hws, h⟩ := bind_eq_ok.1 h
  cases h
  rw [pieces_cons_single rfl, pieces_append_single rfl, ofPieces, ofPieces_append he,
    e.expectsAfter_tokens, ofPieces_single (t := .closing) (by simp) rfl] at hws
  obtain ⟨xs, hxs, h⟩ := bind_eq_ok.1 hws
  cases h
  obtain ⟨ys, hys, h⟩ := bind_eq_ok.1 hxs
  cases h
  obtain ⟨vs, hvs, h⟩ := bind_eq_ok.1 hys
  cases h
  refine ⟨us, vs, e, hopens, ends_factor_of_head hpost hvs, by simp [minusGroup], ?_⟩
  have zero_pieces : pieces Decimal.isLiteralChar
      ('0' :: '-' :: '(' :: (inner ++ ')' :: ')' :: post)) =
        .run ['0'] :: .single '-' :: .single '(' :: (pieces Decimal.isLiteralChar inner ++
          .single ')' :: .single ')' :: pieces Decimal.isLiteralChar post) := by
    have tail : pieces Decimal.isLiteralChar (inner ++ ')' :: ')' :: post) = _ :=
      pieces_append_single rfl _ _
    simp [pieces, tail, Decimal.isLiteralChar, Piece.consRun]
  have zero_literal : readLiteral ['0'] = .ok 0 := by
    have : Decimal.read? ['0'] = some 0 := by decide +kernel
    rw [readLiteral, this]
  have hvs : ofPieces Token.closing.expectsOperand (pieces Decimal.isLiteralChar post) = .ok vs :=
    hvs
  rw [read_eq_ofPieces htext' (by simp), pieces_append_single rfl, ofPieces_append hus,
    expectsAfter_of_opensTerm hopens, zero_pieces, ofPieces_single (t := .opening) (by simp) rfl,
    expectsOperand, ofPieces, zero_literal, ok_bind,
    ofPieces_single (t := .operator .minus) (by simp) rfl, expectsOperand,
    ofPieces_single (t := .opening) (by simp) rfl, expectsOperand, ofPieces_append he,
    e.expectsAfter_tokens, ofPieces_single (t := .closing) (by simp) rfl, expectsOperand,
    ofPieces_single (t := .closing) (by simp) rfl, hvs]
  simp [ok_bind, negatedGroup, minusGroup, pure, Except.pure]

/-! ## The values of the two texts -/

theorem isFinite_of_evaluate_eq_ok {ts : List Token} {x : Float} (h : evaluate ts = .ok x) :
    x.isFinite = true := by
  by_cases hts : ts = []
  · subst hts
    cases h
  · rw [evaluate_eq_outcome hts] at h
    obtain ⟨s, -, h⟩ := bind_eq_ok.1 h
    obtain ⟨vs, -, h⟩ := bind_eq_ok.1 h
    match vs with
    | [] => cases h
    | [y] =>
      rw [Stacks.result, checkFinite] at h
      split at h
      · cases h
        assumption
      · cases h
    | _ :: _ :: _ => cases h

/-- **At the start, behind an opening parenthesis and behind a plus, a minus negates the group.** -/
theorem Negates.agree {before : Option Char} {text text' : List Char}
    (hn : Negates before text text')
    (hb : before = none ∨ before = some '(' ∨ before = some '+') (hw : WellFormed text) :
    Agree (fun x y => (x == y) = true) (evaluateText text) (evaluateText text') := by
  obtain ⟨e, he⟩ := hw
  obtain ⟨us, vs, g, hopens, hends, htokens, hread⟩ := hn.exists_tokens hb he
  obtain ⟨placed, balanced⟩ := exists_tokens_eq_iff.1 ⟨e, rfl⟩
  rw [htokens] at placed balanced
  obtain ⟨_, balanced⟩ := balanced.of_append
  obtain ⟨_, balanced⟩ := balanced.of_append
  have h := agree_evaluate_negation g hopens placed balanced hends
  simp only [evaluateText, he, hread, htokens, ok_bind]
  exact h.mono fun x y hx hxy => hxy.beq (isFinite_of_evaluate_eq_ok hx)

/-! ## Behind the other signs -/

/-- Six, the sign of an operator and a minus before a group. -/
def behind (op : Operator) : List Char := ['6', op.symbol, '-', '(', '3', ')']

/-- Six, the sign of an operator and the group subtracted from zero. -/
def besides (op : Operator) : List Char := ['6', op.symbol, '(', '0', '-', '(', '3', ')', ')']

theorem readLiteral_digits :
    readLiteral ['6'] = .ok 6 ∧ readLiteral ['3'] = .ok 3 ∧ readLiteral ['0'] = .ok 0 := by
  have six : Decimal.read? ['6'] = some 6 := by decide +kernel
  have three : Decimal.read? ['3'] = some 3 := by decide +kernel
  have zero : Decimal.read? ['0'] = some 0 := by decide +kernel
  simp [readLiteral, six, three, zero]

theorem read_behind (op : Operator) :
    Token.read (behind op) = .ok [.number 6, .operator op, .number 0, .operator .minus, .opening,
      .number 3, .closing] := by
  obtain ⟨six, three, -⟩ := readLiteral_digits
  have blanks : (behind op).filter (!isBlank ·) = behind op := by cases op <;> decide
  rw [read_eq_ofPieces blanks (by simp [behind])]
  cases op <;>
    simp [behind, Operator.symbol, pieces, Piece.consRun, Decimal.isLiteralChar, ofPieces, six,
      three, ofSymbol?, expectsOperand, ok_bind, pure, Except.pure]

theorem read_besides (op : Operator) :
    Token.read (besides op) = .ok [.number 6, .operator op, .opening, .number 0, .operator .minus,
      .opening, .number 3, .closing, .closing] := by
  obtain ⟨six, three, zero⟩ := readLiteral_digits
  have blanks : (besides op).filter (!isBlank ·) = besides op := by cases op <;> decide
  rw [read_eq_ofPieces blanks (by simp [besides])]
  cases op <;>
    simp [besides, Operator.symbol, pieces, Piece.consRun, Decimal.isLiteralChar, ofPieces, six,
      three, zero, ofSymbol?, expectsOperand, ok_bind, pure, Except.pure]

theorem wellFormed_three : WellFormed ['3'] := by
  have blanks : ['3'].filter (!isBlank ·) = ['3'] := by decide
  refine ⟨.ofNumber 3, ?_⟩
  rw [read_eq_ofPieces blanks (by simp)]
  simp [pieces, Piece.consRun, Decimal.isLiteralChar, Token.ofPieces, readLiteral_digits.2.1,
    ok_bind, pure, Except.pure, Expression.ofNumber, Expression.tokens]

theorem wellFormed_behind (op : Operator) : WellFormed (behind op) := by
  rw [WellFormed, read_behind]
  have placed : Placed true [.number 6, .operator op, .number 0, .operator .minus, .opening,
      .number 3, .closing] := by simp [Placed, startsOperand, expectsOperand]
  obtain ⟨e, he⟩ := exists_tokens_eq_iff.2 ⟨placed, rfl⟩
  exact ⟨e, congrArg Except.ok he.symm⟩

theorem negates_behind (op : Operator) :
    Negates (some op.symbol) (behind op) (besides op) := by
  refine ⟨['6', op.symbol], ['3'], [], rfl, wellFormed_three, by simp, ?_, ?_⟩ <;>
    cases op <;> decide

/-- Behind a minus the group is subtracted, where it has to be added. -/
theorem evaluateText_behind_minus :
    evaluateText (behind .minus) = .ok 3 ∧ evaluateText (besides .minus) = .ok 9 := by
  have run (a z b : Float) : evaluate [.number a, .operator .minus, .number z, .operator .minus,
      .opening, .number b, .closing] = checkFinite (a - z - b) := rfl
  have run' (a z b : Float) : evaluate [.number a, .operator .minus, .opening, .number z,
      .operator .minus, .opening, .number b, .closing, .closing] =
        checkFinite (a - (z - b)) := rfl
  have value : (6 : Float) - 0 - 3 = 3 := by decide +kernel
  have value' : (6 : Float) - (0 - 3) = 9 := by decide +kernel
  rw [evaluateText, read_behind, ok_bind, run, value, evaluateText, read_besides, ok_bind, run',
    value', checkFinite, if_pos (by decide +kernel), checkFinite, if_pos (by decide +kernel)]
  exact ⟨rfl, rfl⟩

/-- Behind a star or a slash the zero is the operand. -/
theorem evaluateText_behind {op : Operator} (h : op.rank = 2) :
    evaluateText (behind op) = (do checkFinite ((← op.apply 6 0) - 3)) ∧
      evaluateText (besides op) = (do checkFinite (← op.apply 6 (0 - 3))) := by
  have left : evaluate (((Expression.ofProduct ((Expression.ofFactor (.ofPrimary
      (.number 6))).scale op h (.ofPrimary (.number 0)))).less
        (Expression.ofNumber 3).group).tokens) = (do checkFinite ((← op.apply 6 0) - 3)) := by
    rw [evaluate_eq_outcome (Expression.tokens_ne_nil _), Expression.outcome_empty_tokens]
    simp only [Expression.valueOver, Expression.less, Expression.group, Expression.ofNumber,
      ok_bind, bind_assoc]
    rfl
  have right : evaluate ((Expression.ofProduct ((Expression.ofFactor (.ofPrimary
      (.number 6))).scale op h (.ofPrimary (.parentheses ((Expression.ofNumber 0).less
        (Expression.ofNumber 3).group))))).tokens) =
          (do checkFinite (← op.apply 6 (0 - 3))) := by
    rw [evaluate_eq_outcome (Expression.tokens_ne_nil _), Expression.outcome_empty_tokens]
    simp only [Expression.valueOver, Expression.less, Expression.group, Expression.ofNumber,
      ok_bind, bind_assoc]
    rfl
  rw [evaluateText, read_behind, evaluateText, read_besides]
  exact ⟨left, right⟩

theorem evaluateText_behind_times :
    evaluateText (behind .times) = .ok (-3) ∧ evaluateText (besides .times) = .ok (-18) := by
  have value : (6 : Float) * 0 - 3 = -3 := by decide +kernel
  have value' : (6 : Float) * (0 - 3) = -18 := by decide +kernel
  obtain ⟨h, h'⟩ := @evaluateText_behind .times rfl
  rw [h, h', Operator.apply, Operator.apply, ok_bind, ok_bind, value, value', checkFinite,
    if_pos (by decide +kernel), checkFinite, if_pos (by decide +kernel)]
  exact ⟨rfl, rfl⟩

theorem evaluateText_behind_over :
    evaluateText (behind .over) = .error .divisionByZero ∧
      evaluateText (besides .over) = .ok (-2) := by
  have value' : (6 : Float) / (0 - 3) = -2 := by decide +kernel
  obtain ⟨h, h'⟩ := @evaluateText_behind .over rfl
  rw [h, h', Operator.apply, if_pos (by decide +kernel), Operator.apply,
    if_neg (by decide +kernel), ok_bind, value', checkFinite, if_pos (by decide +kernel)]
  exact ⟨rfl, rfl⟩

/-- **A minus negates the group behind it at the start, behind an opening parenthesis and behind a
plus, and not behind the other operators.** -/
theorem agree_evaluateText_iff {before : Option Char}
    (hb : before = none ∨ before = some '(' ∨ ∃ op : Operator, before = some op.symbol) :
    (∀ text text', WellFormed text → Negates before text text' →
        Agree (fun x y => (x == y) = true) (evaluateText text) (evaluateText text')) ↔
      before = none ∨ before = some '(' ∨ before = some '+' := by
  constructor
  · intro h
    obtain rfl | rfl | ⟨op, rfl⟩ := hb
    · exact .inl rfl
    · exact .inr (.inl rfl)
    · have agree := h _ _ (wellFormed_behind op) (negates_behind op)
      match op with
      | .plus => exact .inr (.inr rfl)
      | .minus =>
        rw [evaluateText_behind_minus.1, evaluateText_behind_minus.2] at agree
        exact absurd agree (by decide +kernel : ¬((3 : Float) == 9) = true)
      | .times =>
        rw [evaluateText_behind_times.1, evaluateText_behind_times.2] at agree
        exact absurd agree (by decide +kernel : ¬((-3 : Float) == -18) = true)
      | .over =>
        rw [evaluateText_behind_over.1, evaluateText_behind_over.2] at agree
        exact agree.elim
  · exact fun h text text' hw hn => hn.agree h hw

/-- Behind a plus. -/
theorem agree_evaluateText_behind_plus :
    Agree (fun x y => (x == y) = true) (evaluateText (behind .plus))
      (evaluateText (besides .plus)) :=
  (agree_evaluateText_iff (.inr (.inr ⟨.plus, rfl⟩))).2 (.inr (.inr rfl)) _ _
    (wellFormed_behind .plus) (negates_behind .plus)

/-- The value of `6--(3)` is 3, that of `6-(0-(3))` is 9. -/
theorem not_agree_evaluateText_behind_minus :
    WellFormed (behind .minus) ∧ Negates (some '-') (behind .minus) (besides .minus) ∧
      ¬Agree (fun x y => (x == y) = true) (evaluateText (behind .minus))
        (evaluateText (besides .minus)) := by
  refine ⟨wellFormed_behind .minus, negates_behind .minus, ?_⟩
  rw [evaluateText_behind_minus.1, evaluateText_behind_minus.2]
  exact (by decide +kernel : ¬((3 : Float) == 9) = true)

end Reckoner
