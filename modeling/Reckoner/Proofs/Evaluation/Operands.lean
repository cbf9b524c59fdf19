import Reckoner.Proofs.Evaluation.Faults
import Reckoner.Proofs.Evaluation.TokenStack

/-!
# Operands

Every number goes on the stack of values, and every operator waits until it takes two values and
leaves one. So at any time the values and the operators that have been carried out make up the
numbers read (`Stacks.balance_run`), and at the end, when none waits, as many values are left as
there are more numbers than operators (`Stacks.countP_of_finish`). None is left only if there never
was one, since an operator leaves one itself.
-/

namespace Reckoner

namespace Token

/-- Whether a token is a number. -/
def isNumber : Token → Bool
  | .number _ => true
  | .operator _ | .percent | .opening | .closing => false

/-- Whether a token is an operator. -/
def isOperator : Token → Bool
  | .operator _ => true
  | .number _ | .percent | .opening | .closing => false

end Token

open Token

namespace Stacks

variable {vs us : List Float} {ws : List Waiting} {s t : Stacks} {tok : Token} {ts : List Token}

/-! ## Values and operators -/

/-- A number is one value more, an operator waits, and those that are carried out take one value
each. -/
theorem balance_step (h : s.step tok = .ok t) :
    t.values.length + pending s.waiting + [tok].countP isOperator =
      s.values.length + [tok].countP isNumber + pending t.waiting := by
  cases tok with
  | number x =>
    cases h
    exact Nat.add_right_comm _ _ _
  | opening =>
    cases h
    rfl
  | closing => exact (keeps_close h).2.1
  | operator op =>
    obtain ⟨u, hu, h⟩ := bind_eq_ok.1 h
    cases h
    have kept := (keeps_unwind hu).2.1
    exact congrArg (· + 1) kept
  | percent =>
    obtain ⟨_ | ⟨x, vs⟩, ws⟩ := s
    · cases h
    · cases h
      rfl

/-- **Values and operators balance** after every run. -/
theorem balance_run (h : s.run ts = .ok t) :
    t.values.length + pending s.waiting + ts.countP isOperator =
      s.values.length + ts.countP isNumber + pending t.waiting := by
  induction ts generalizing s with
  | nil =>
    cases h
    rfl
  | cons tok ts ih =>
    obtain ⟨u, hu, h⟩ := bind_eq_ok.1 h
    have first := balance_step hu
    have rest := ih h
    rw [← List.singleton_append, List.countP_append, List.countP_append]
    omega

/-! ## No value -/

/-- Once there is a value, there is one. -/
theorem ne_nil_of_step (h : s.step tok = .ok t) (hs : s.values ≠ [] ∨ tok.isNumber = true) :
    t.values ≠ [] := by
  cases tok with
  | number x =>
    cases h
    exact List.cons_ne_nil _ _
  | opening =>
    cases h
    exact hs.resolve_right (by simp [isNumber])
  | closing => exact (keeps_close h).2.2 (hs.resolve_right (by simp [isNumber]))
  | operator op =>
    obtain ⟨u, hu, h⟩ := bind_eq_ok.1 h
    cases h
    exact (keeps_unwind hu).2.2 (hs.resolve_right (by simp [isNumber]))
  | percent =>
    obtain ⟨_ | ⟨x, vs⟩, ws⟩ := s
    · cases h
    · cases h
      exact List.cons_ne_nil _ _

theorem ne_nil_of_run (h : s.run ts = .ok t) (hs : s.values ≠ [] ∨ 0 < ts.countP isNumber) :
    t.values ≠ [] := by
  induction ts generalizing s with
  | nil =>
    cases h
    exact hs.resolve_right (Nat.lt_irrefl 0)
  | cons tok ts ih =>
    obtain ⟨u, hu, h⟩ := bind_eq_ok.1 h
    refine ih h ?_
    by_cases hnumber : tok.isNumber = true
    · exact .inl (ne_nil_of_step hu (.inr hnumber))
    · rw [List.countP_cons_of_neg hnumber] at hs
      exact hs.imp_left fun hvs => ne_nil_of_step hu (.inl hvs)

/-- **The values that are left** are as many as there are more numbers than operators, and there is
one if there is a number. -/
theorem countP_of_finish (hrun : empty.run ts = .ok s) (h : finish s.values s.waiting = .ok vs) :
    ts.countP isNumber = ts.countP isOperator + vs.length ∧
      (vs = [] → ts.countP isNumber = 0) := by
  obtain ⟨-, kept, stays⟩ := keeps_finish h
  refine ⟨?_, fun hvs => Nat.eq_zero_of_not_pos fun some_number => ?_⟩
  · have balance := balance_run hrun
    simp only [Keeps, empty, pending, List.length_nil] at kept balance
    omega
  · exact stays (ne_nil_of_run hrun (.inr some_number)) hvs

theorem length_of_result {x : Float} (h : result vs = .ok x) : vs.length = 1 := by
  match vs with
  | [] | _ :: _ :: _ => cases h
  | [x] => rfl

theorem length_of_leftover {k : Nat} (h : result vs = .error (.malformed (.leftover k))) :
    vs.length = k := by
  match vs with
  | [x] =>
    rw [result, checkFinite] at h
    split at h <;> cases h
  | [] | _ :: _ :: _ =>
    cases h
    rfl

end Stacks

/-! ## Evaluations -/

/-- No wording of a fault of evaluation ends like that of an unexpected operator. -/
theorem getLast?_message {ts : List Token} {f : Fault} (h : OfEvaluation ts f) :
    f.message.toList.getLast? ≠ some 'u' := by
  cases h with
  | missingOperand | divisionByZero | barePercent | unbalanced _ => decide +kernel
  | @leftover k =>
    have wording : (Fault.malformed (.leftover k)).message =
        "expression invalide : " ++ (toString k ++ " valeurs restantes au lieu d’une") := rfl
    have last : " valeurs restantes au lieu d’une".toList.getLast? = some 'e' := by decide +kernel
    rw [wording, String.toList_append, String.toList_append, List.getLast?_append,
      List.getLast?_append, last]
    simp
  | @notFinite x =>
    have wording : (Fault.malformed (.notFinite x)).message =
        "expression invalide : " ++ ("résultat non fini (" ++ Decimal.text x ++ ")") := rfl
    have last : ")".toList.getLast? = some ')' := by decide +kernel
    rw [wording, String.toList_append, String.toList_append, List.getLast?_append,
      List.getLast?_append, last]
    simp

/-- **What an evaluation leaves**, where it gives a value or too few or too many are left: as many as
there are more numbers than operators, and one if there is a number. -/
theorem exists_left {ts : List Token} {r : Except Fault Float} (h : evaluate ts = r)
    (hr : (∃ x, r = .ok x) ∨ ∃ k, r = .error (.malformed (.leftover k))) :
    ∃ vs, Stacks.result vs = r ∧ ts.countP isNumber = ts.countP isOperator + vs.length ∧
      (vs = [] → ts.countP isNumber = 0) := by
  have hts : ts ≠ [] := by
    rintro rfl
    subst h
    obtain ⟨x, hx⟩ | ⟨k, hk⟩ := hr
    · cases hx
    · cases hk
  have early {f : Fault} (hf : Stacks.OfOperator f ∨ f = .barePercent ∨ f = .unbalanced) :
      r ≠ .error f := by
    rintro rfl
    obtain ⟨x, hx⟩ | ⟨k, hk⟩ := hr
    · cases hx
    · cases hk
      obtain (hf | hf) | hf | hf := hf <;> cases hf
  rw [evaluate_eq_outcome hts, Stacks.outcome] at h
  cases hs : Stacks.empty.run ts with
  | error f =>
    rw [hs] at h
    exact absurd h.symm (early ((Stacks.fault_of_run hs).imp_right (.imp_right And.left)))
  | ok s =>
    rw [hs, ok_bind] at h
    cases hvs : Stacks.finish s.values s.waiting with
    | error f =>
      rw [hvs] at h
      exact absurd h.symm (early ((Stacks.fault_of_finish hvs).imp_right fun hf => .inr hf.1))
    | ok vs =>
      rw [hvs, ok_bind] at h
      exact ⟨vs, h, Stacks.countP_of_finish hs hvs⟩

theorem countP_of_evaluate_eq_ok {ts : List Token} {x : Float} (h : evaluate ts = .ok x) :
    ts.countP isNumber = ts.countP isOperator + 1 := by
  obtain ⟨vs, hresult, balance, -⟩ := exists_left h (.inl ⟨x, rfl⟩)
  rw [balance, Stacks.length_of_result hresult]

theorem countP_of_evaluate_eq_leftover {ts : List Token} {k : Nat}
    (h : evaluate ts = .error (.malformed (.leftover k))) :
    ts.countP isNumber = ts.countP isOperator + k ∧ (k = 0 → ts.countP isNumber = 0) := by
  obtain ⟨vs, hresult, balance, none_left⟩ := exists_left h (.inr ⟨k, rfl⟩)
  have hk := Stacks.length_of_leftover hresult
  rw [hk] at balance
  exact ⟨balance, fun h0 => none_left (List.eq_nil_of_length_eq_zero (hk.trans h0))⟩

/-- **Every number and every operator is used once.** A list with a value has one number more than
operators, and one that leaves values has as many more as it leaves, which is none only if it has
neither. No token but an operator is carried out as one, and no value is taken from an empty
stack. -/
theorem evaluate_uses_all_operands (ts : List Token) :
    (∀ x, evaluate ts = .ok x → ts.countP isNumber = ts.countP isOperator + 1) ∧
    (∀ k, evaluate ts = .error (.malformed (.leftover k)) →
      ts.countP isNumber = ts.countP isOperator + k ∧ k ≠ 1 ∧
        (k = 0 → ts.countP isNumber = 0 ∧ ts.countP isOperator = 0)) ∧
    (∀ refusal, TokenStacks.evaluate refusal ts = evaluate ts) ∧
    (∀ f, evaluate ts = .error f →
      f.message ≠ "expression invalide : opérateur inattendu") ∧
    (ts ≠ [] → evaluate ts ≠ .error .empty) := by
  refine ⟨fun x h => countP_of_evaluate_eq_ok h, fun k h => ?_,
    fun refusal => TokenStacks.evaluate_eq refusal ts, fun f h hmessage => ?_, fun hts h => ?_⟩
  · obtain ⟨balance, no_number⟩ := countP_of_evaluate_eq_leftover h
    refine ⟨balance, ?_, fun hk => ⟨no_number hk, ?_⟩⟩
    · have hts : ts ≠ [] := by
        rintro rfl
        cases h
      cases fault_of_evaluate hts h with
      | leftover hk => exact hk
    · have := no_number hk
      omega
  · by_cases hts : ts = []
    · subst hts
      cases h
      exact absurd hmessage (by decide +kernel)
    · have last : "expression invalide : opérateur inattendu".toList.getLast? = some 'u' := by
        decide +kernel
      exact getLast?_message (fault_of_evaluate hts h) (hmessage ▸ last)
  · cases fault_of_evaluate hts h

/-- A sum uses both numbers, two numbers beside each other are both left, and parentheses around
nothing leave nothing. -/
theorem evaluate_uses_all_operands_cases :
    [Token.number 1, .operator .plus, .number 2].countP isNumber =
        [Token.number 1, .operator .plus, .number 2].countP isOperator + 1 ∧
      [Token.number 1, .number 2].countP isNumber =
        [Token.number 1, .number 2].countP isOperator + 2 ∧
      [Token.opening, .closing].countP isNumber = 0 := by
  have run (a b : Float) :
      evaluate [.number a, .operator .plus, .number b] = checkFinite (a + b) := rfl
  have value := (run 1 2).trans (if_pos (by decide +kernel))
  exact ⟨(evaluate_uses_all_operands _).1 _ value, ((evaluate_uses_all_operands _).2.1 2 rfl).1,
    (((evaluate_uses_all_operands _).2.1 0 rfl).2.2 rfl).1⟩

end Reckoner
