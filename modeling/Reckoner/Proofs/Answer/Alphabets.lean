import Reckoner.Proofs.Evaluation.Faults
import Reckoner.Proofs.Token.Faults
import Reckoner.Proofs.Token.Lexemes
import Reckoner.Proofs.Wording.Direct

/-!
# The alphabets of the stages

The calculation that is made of a text has only characters that the reader of tokens knows
(`fault_of_answerArithmetic`), and a text with a digit in it is not empty. An equation is made of the
characters of polynomials and of equal signs, and it is solved only where it has one of these
(`fault_of_answerAlgebra`). So the faults of an answer are few (`OfAnswer`), and what their messages
quote stands there as it is (`quoted_of_isEquationChar`).
-/

namespace Reckoner

open Text Unicode Wording

/-! ## Characters -/

namespace Wording

variable {text : List Char} {c : Char}

theorem isExpressionChar_of_mem
    (h : c ∈ (toExpression text).filter (!isBlank ·)) : isExpressionChar c = true := by
  rw [toExpression, filter_squeeze, List.mem_filter, List.mem_filter] at h
  obtain ⟨⟨-, kept⟩, solid⟩ := h
  rw [Bool.not_eq_true'] at solid
  rwa [solid, Bool.or_false] at kept

theorem isEquationChar_of_mem (h : c ∈ toEquation text) : isEquationChar c = true := by
  rw [toEquation] at h
  exact (List.mem_filter.1 h).2

theorem isExpressionChar_of_isLiteralChar (h : Decimal.isLiteralChar c = true) :
    isExpressionChar c = true := by
  rw [Decimal.isLiteralChar, Bool.or_eq_true, decide_eq_true_eq] at h
  obtain digit | rfl := h
  · rw [isExpressionChar, digit, Bool.true_or]
  · rfl

/-- The reader of tokens knows all characters of calculations. -/
theorem isTokenChar_of_isExpressionChar (h : isExpressionChar c = true) :
    Token.isTokenChar c = true := by
  have signs : "+-*/().%".toList.all Token.isTokenChar = true := by decide
  obtain digit | sign := (Bool.or_eq_true _ _).mp h
  · rw [Token.isTokenChar, Decimal.isLiteralChar, digit, Bool.true_or, Bool.true_or]
  · exact List.all_eq_true.1 signs c (List.contains_iff_mem.1 sign)

/-- No character of a calculation has to be escaped. -/
theorem escape_of_isExpressionChar (h : isExpressionChar c = true) : escape c = [c] := by
  have codes : ∀ n < 0x41, isExpressionChar (Char.ofNat n) = true →
      escape (Char.ofNat n) = [Char.ofNat n] := by decide
  have code := codes c.toNat (toNat_lt_of_isExpressionChar h)
  rw [Char.ofNat_toNat] at code
  exact code h

theorem escape_of_isEquationChar (h : isEquationChar c = true) : escape c = [c] := by
  have signs : ['x', '^', '='].all (fun c => escape c = [c]) = true := by decide
  obtain h | h := isEquationChar_cases h
  · exact escape_of_isExpressionChar h
  · simpa using List.all_eq_true.1 signs c h

end Wording

/-- A text between quotes as it is. -/
def inQuotes (text : List Char) : String := "\"" ++ String.ofList text ++ "\""

/-- A text is quoted as it is if nothing in it has to be escaped. -/
theorem quoted_eq_inQuotes {text : List Char} (h : ∀ c ∈ text, escape c = [c]) :
    quoted text = inQuotes text := by
  have same : text.flatMap escape = text := by
    induction text with
    | nil => rfl
    | cons c text ih =>
      rw [List.flatMap_cons, h c List.mem_cons_self,
        ih fun d hd => h d (List.mem_cons_of_mem _ hd), List.singleton_append]
  rw [quoted, same, String.ofList_append, String.ofList_cons]
  rfl

theorem quoted_of_isExpressionChar {text : List Char} (h : text.all isExpressionChar = true) :
    quoted text = inQuotes text :=
  quoted_eq_inQuotes fun c hc => escape_of_isExpressionChar (List.all_eq_true.1 h c hc)

theorem quoted_of_isEquationChar {text : List Char} (h : text.all isEquationChar = true) :
    quoted text = inQuotes text :=
  quoted_eq_inQuotes fun c hc => escape_of_isEquationChar (List.all_eq_true.1 h c hc)

/-! ## Faults -/

/-- The faults in which an answer may end. -/
inductive OfAnswer : Fault → Prop
  | literal {run : List Char} (chars : run.all isExpressionChar = true) : OfAnswer (.literal run)
  | bareSign : OfAnswer (.malformed .bareSign)
  | evaluation {ts : List Token} {f : Fault} (h : OfEvaluation ts f) : OfAnswer f
  | leftSide {side : List Char} (chars : side.all isEquationChar = true) :
    OfAnswer (.unsolvable (.leftSide side))
  | rightSide {side : List Char} (chars : side.all isEquationChar = true) :
    OfAnswer (.unsolvable (.rightSide side))
  | noUnknown : OfAnswer (.unsolvable .noUnknown)
  | degree (d : ℕ) : OfAnswer (.unsolvable (.degree d))
  | unrecognised : OfAnswer .unrecognised

namespace Token

/-- Where the reader knows all characters, only runs and minus signs can be at fault. -/
theorem fault_of_read {text : List Char} {f : Fault}
    (chars : ∀ c ∈ text.filter (!isBlank ·), isTokenChar c = true) (h : read text = .error f) :
    text.filter (!isBlank ·) = [] ∧ f = .empty ∨ OfAnswer f := by
  generalize hcs : text.filter (!isBlank ·) = cs at chars
  by_cases hne : cs = []
  · subst hne
    rw [read, hcs] at h
    cases h
    exact .inl ⟨rfl, rfl⟩
  · rw [read_eq_ofPieces hcs hne] at h
    have judged : Judges none cs (ofPieces true (pieces Decimal.isLiteralChar cs)) :=
      judges_ofPieces (by simp [OpensOperand]) fun h => by cases h
    rw [h] at judged
    obtain ⟨i, place, -⟩ := judged
    have known : ∀ c ∈ cs.drop i, isTokenChar c = true := fun c hc => chars c (List.mem_of_mem_drop hc)
    rw [FaultFrom] at place
    generalize cs.drop i = rest at place known
    cases place with
    | unexpected unknown =>
      cases (known _ List.mem_cons_self).symm.trans unknown
    | literal _ digits =>
      exact .inr (.literal (List.all_eq_true.2 fun c hc =>
        isExpressionChar_of_isLiteralChar (List.all_eq_true.1 digits c hc)))
    | bareSign => exact .inr .bareSign

/-- What is read is not empty. -/
theorem ne_nil_of_read {text : List Char} {ts : List Token} (h : read text = .ok ts) : ts ≠ [] := by
  obtain ⟨ls, ne_nil, -, -, rfl⟩ := read_eq_ok_iff_lexed.1 h
  exact fun nil => ne_nil (List.map_eq_nil_iff.1 nil)

end Token

/-- **The faults of a calculation**: without a digit it may be empty. -/
theorem fault_of_answerArithmetic {text : List Char} {f : Fault}
    (h : answerArithmetic text = .error f) :
    wordsCalculation text = false ∧ f = .empty ∨ OfAnswer f := by
  obtain h | ⟨ts, hts, h⟩ := bind_eq_error.1 h
  · have chars : ∀ c ∈ (toExpression text).filter (!isBlank ·), Token.isTokenChar c = true :=
      fun c hc => isTokenChar_of_isExpressionChar (isExpressionChar_of_mem hc)
    refine (Token.fault_of_read chars h).imp_left fun ⟨blank, hf⟩ => ⟨?_, hf⟩
    rw [wordsCalculation, List.any_eq_false]
    intro c hc digit
    have solid := List.filter_eq_nil_iff.1 blank c hc
    rw [isBlank_eq_false_of_isWord (isWord_of_isDigit (isDigit_of_isDigit digit))] at solid
    exact solid rfl
  · obtain h | ⟨x, -, h⟩ := bind_eq_error.1 h
    · exact .inr (.evaluation (fault_of_evaluate (Token.ne_nil_of_read hts) h))
    · cases h

namespace Equation

theorem fault_of_readSide {obstacle : List Char → Obstacle} {text : List Char} {f : Fault}
    (h : readSide obstacle text = .error f) : f = .unsolvable (obstacle text) := by
  unfold readSide at h
  split at h
  · cases h
  · cases h
    rfl

theorem fault_of_solvePolynomial {p : Polynomial} {stated : ℕ} {f : Fault}
    (h : solvePolynomial p stated = .error f) : OfAnswer f := by
  unfold solvePolynomial at h
  split at h
  · split at h
    · cases h
      exact .noUnknown
    · cases h
  · split at h
    · cases h
      exact .noUnknown
    · cases h
  · cases h
  · cases h
    exact .degree _

/-- A text with one equal sign has two sides. -/
theorem sides?_ne_none {text : List Char} (h : text.count '=' = 1) : sides? text ≠ none := by
  have mem : '=' ∈ text := List.count_pos_iff.1 (by omega)
  obtain ⟨left, right, rfl, hleft⟩ := List.eq_append_cons_of_mem mem
  rw [List.count_append, List.count_cons_self, List.count_eq_zero.2 hleft] at h
  have hright : '=' ∉ right := List.count_eq_zero.1 (by omega)
  rw [sides?_eq_some_iff.2 ⟨rfl, hleft, hright⟩]
  exact Option.some_ne_none _

/-- The faults of an equation: its equal signs, or what its characters state. -/
theorem fault_of_solve {text : List Char} {f : Fault}
    (chars : ∀ c ∈ text, isEquationChar c = true) (h : solve text = .error f) :
    text.count '=' ≠ 1 ∧ f = .unsolvable .equalSigns ∨ OfAnswer f := by
  unfold solve at h
  split at h
  · rename_i none_of
    cases h
    exact .inl ⟨fun one => sides?_ne_none one none_of, rfl⟩
  · rename_i left right hsides
    obtain ⟨rfl, -, -⟩ := sides?_eq_some_iff.1 hsides
    right
    obtain h | ⟨l, -, h⟩ := bind_eq_error.1 h
    · rw [fault_of_readSide h]
      exact .leftSide (List.all_eq_true.2 fun c hc => chars c (by simp [hc]))
    obtain h | ⟨r, -, h⟩ := bind_eq_error.1 h
    · rw [fault_of_readSide h]
      exact .rightSide (List.all_eq_true.2 fun c hc => chars c (by simp [hc]))
    obtain h | ⟨⟨solution, steps, discriminant⟩, -, h⟩ := bind_eq_error.1 h
    · exact fault_of_solvePolynomial h
    · cases h

end Equation

/-- **The faults of an equation**: it may lack its one equal sign. -/
theorem fault_of_answerAlgebra {text : List Char} {f : Fault} (h : answerAlgebra text = .error f) :
    wordsEquation text = false ∧ f = .unsolvable .equalSigns ∨ OfAnswer f := by
  obtain h | ⟨r, -, h⟩ := bind_eq_error.1 h
  · refine (Equation.fault_of_solve (fun c => isEquationChar_of_mem) h).imp_left
      fun ⟨signs, hf⟩ => ⟨?_, hf⟩
    simp [wordsEquation, signs]
  · cases h

/-- **Detection fits its stage**: a text that is answered by itself is neither empty nor without its
one equal sign. -/
theorem fault_of_answer {text : List Char} {f : Fault} (h : answer text = .error f) :
    OfAnswer f := by
  unfold answer Mode.detect at h
  by_cases equation : wordsEquation text = true
  · rw [if_pos equation] at h
    refine (fault_of_answerAlgebra h).resolve_left fun ⟨none_of, _⟩ => ?_
    cases none_of.symm.trans equation
  rw [if_neg equation] at h
  by_cases calculation : wordsCalculation text = true
  · rw [if_pos calculation] at h
    refine (fault_of_answerArithmetic h).resolve_left fun ⟨none_of, _⟩ => ?_
    cases none_of.symm.trans calculation
  · rw [if_neg calculation] at h
    cases h
    exact .unrecognised

/-! ## Modes -/

theorem mode_of_answerIn {mode : Mode} {text : List Char} {r : Answer}
    (h : answerIn mode text = .ok r) : r.mode = mode := by
  cases mode with
  | arithmetic =>
    obtain ⟨ts, -, h⟩ := bind_eq_ok.1 h
    obtain ⟨x, -, h⟩ := bind_eq_ok.1 h
    cases h
    rfl
  | algebra =>
    obtain ⟨r, -, h⟩ := bind_eq_ok.1 h
    cases h
    rfl

/-- An answer is the one in its own mode. -/
theorem answerIn_of_answer {text : List Char} {r : Answer} (h : answer text = .ok r) :
    answerIn r.mode text = .ok r := by
  unfold answer at h
  split at h
  · rwa [mode_of_answerIn h]
  · cases h

/-! ## Messages -/

namespace OfAnswer

/-- What is never said. -/
theorem ne_of_alphabets {f : Fault} (h : OfAnswer f) :
    f ≠ .empty ∧ (∀ c, f ≠ .malformed (.unexpected c)) ∧ f ≠ .unsolvable .equalSigns := by
  cases h with
  | evaluation h => cases h <;> simp
  | literal | bareSign | leftSide | rightSide | noUnknown | degree | unrecognised => simp

theorem message_literal {t : List Char} (h : OfAnswer (.literal t)) :
    t.all isExpressionChar = true ∧
      (Fault.literal t).message = "jeton invalide : " ++ inQuotes t := by
  cases h with
  | evaluation h => cases h
  | literal chars =>
    exact ⟨chars, congrArg ("jeton invalide : " ++ ·) (quoted_of_isExpressionChar chars)⟩

theorem message_leftSide {t : List Char} (h : OfAnswer (.unsolvable (.leftSide t))) :
    t.all isEquationChar = true ∧ (Fault.unsolvable (.leftSide t)).message =
      "équation non résoluble : " ++ ("membre gauche illisible: " ++ inQuotes t) := by
  cases h with
  | evaluation h => cases h
  | leftSide chars => exact ⟨chars, congrArg (fun quote => "équation non résoluble : " ++
      ("membre gauche illisible: " ++ quote)) (quoted_of_isEquationChar chars)⟩

theorem message_rightSide {t : List Char} (h : OfAnswer (.unsolvable (.rightSide t))) :
    t.all isEquationChar = true ∧ (Fault.unsolvable (.rightSide t)).message =
      "équation non résoluble : " ++ ("membre droit illisible: " ++ inQuotes t) := by
  cases h with
  | evaluation h => cases h
  | rightSide chars => exact ⟨chars, congrArg (fun quote => "équation non résoluble : " ++
      ("membre droit illisible: " ++ quote)) (quoted_of_isEquationChar chars)⟩

end OfAnswer

/-- **The stages agree on their alphabets.** A calculation has no unexpected character, whatever the
text; where the mode fits the text, it is not empty either, and an equation has its one equal sign.
What a message quotes is made of the characters of calculations or of equations, and stands between
the quotes as it is. And an answer is the one that its own mode gives. -/
theorem answer_alphabets (text : List Char) :
    (∀ f, answerArithmetic text = .error f → ∀ c, f ≠ .malformed (.unexpected c)) ∧
    (∀ f, answer text = .error f →
      f ≠ .empty ∧ (∀ c, f ≠ .malformed (.unexpected c)) ∧ f ≠ .unsolvable .equalSigns) ∧
    (∀ t, answer text = .error (.literal t) → t.all isExpressionChar = true ∧
      (Fault.literal t).message = "jeton invalide : " ++ inQuotes t) ∧
    (∀ t, answer text = .error (.unsolvable (.leftSide t)) → t.all isEquationChar = true ∧
      (Fault.unsolvable (.leftSide t)).message =
        "équation non résoluble : " ++ ("membre gauche illisible: " ++ inQuotes t)) ∧
    (∀ t, answer text = .error (.unsolvable (.rightSide t)) → t.all isEquationChar = true ∧
      (Fault.unsolvable (.rightSide t)).message =
        "équation non résoluble : " ++ ("membre droit illisible: " ++ inQuotes t)) ∧
    ∀ r, answer text = .ok r → answerIn r.mode text = .ok r := by
  refine ⟨fun f h => ?_, fun f h => (fault_of_answer h).ne_of_alphabets,
    fun t h => (fault_of_answer h).message_literal, fun t h => (fault_of_answer h).message_leftSide,
    fun t h => (fault_of_answer h).message_rightSide, fun r => answerIn_of_answer⟩
  obtain ⟨-, rfl⟩ | faults := fault_of_answerArithmetic h
  · exact fun c h => by cases h
  · exact faults.ne_of_alphabets.2.1

/-- A calculation and two equations that are refused for what they quote, and an equation that is
answered. -/
theorem answer_alphabets_refused :
    (∃ f, answerArithmetic "1.2.3".toList = .error f ∧ ∀ c, f ≠ .malformed (.unexpected c)) ∧
    (∃ f, answer "1.2.3".toList = .error f ∧ f ≠ .empty ∧ f ≠ .unsolvable .equalSigns ∧
      f.message = "jeton invalide : " ++ inQuotes "1.2.3".toList) ∧
    (∃ f, answer "2x + = 4".toList = .error f ∧ f.message =
      "équation non résoluble : " ++ ("membre gauche illisible: " ++ inQuotes "2x+".toList)) ∧
    (∃ f, answer "4 = 2x +".toList = .error f ∧ f.message =
      "équation non résoluble : " ++ ("membre droit illisible: " ++ inQuotes "2x+".toList)) ∧
    ∃ r, answer "2x = 4".toList = .ok r ∧ answerIn r.mode "2x = 4".toList = .ok r := by
  have points : answerArithmetic "1.2.3".toList = .error (.literal "1.2.3".toList) := by
    with_unfolding_all rfl
  have run : answer "1.2.3".toList = .error (.literal "1.2.3".toList) := by
    with_unfolding_all rfl
  have left : answer "2x + = 4".toList = .error (.unsolvable (.leftSide "2x+".toList)) := by
    with_unfolding_all rfl
  have right : answer "4 = 2x +".toList = .error (.unsolvable (.rightSide "2x+".toList)) := by
    with_unfolding_all rfl
  have answered : (answer "2x = 4".toList).isOk = true := by
    with_unfolding_all rfl
  obtain ⟨calculation, refused, literal, -⟩ := answer_alphabets "1.2.3".toList
  obtain ⟨-, -, -, leftSide, -⟩ := answer_alphabets "2x + = 4".toList
  obtain ⟨-, -, -, -, rightSide, -⟩ := answer_alphabets "4 = 2x +".toList
  obtain ⟨-, -, -, -, -, own⟩ := answer_alphabets "2x = 4".toList
  obtain ⟨not_empty, -, signs⟩ := refused _ run
  refine ⟨⟨_, points, calculation _ points⟩, ⟨_, run, not_empty, signs, (literal _ run).2⟩,
    ⟨_, left, (leftSide _ left).2⟩, ⟨_, right, (rightSide _ right).2⟩, ?_⟩
  cases h : answer "2x = 4".toList with
  | error f =>
    rw [h] at answered
    cases answered
  | ok r => exact ⟨r, rfl, own r h⟩

end Reckoner
