import Reckoner.Proofs.Evaluation.Counts

/-!
# Faults of evaluation

An operator that is carried out ends in a missing operand or a division by zero, wherever it is
carried out from (`Stacks.OfOperator`). All the other faults have one place each: a percent sign, a
closing parenthesis without a partner, an opening one that waits at the end, and what is left then
(`fault_of_evaluate`).

A parenthesis lacks a partner exactly if the parentheses of the whole list do not match, also where
the rest of the list is never read. Matching is said here by counting: no part from the start has
more closing parentheses than opening ones, and the whole has as many (`balanced_iff_matched`).
-/

namespace Reckoner

open Token

namespace Stacks

/-! ## Carrying out operators -/

/-- The faults of an operator that is carried out. -/
def OfOperator (f : Fault) : Prop := f = .malformed .missingOperand ∨ f = .divisionByZero

variable {f : Fault} {vs : List Float} {ws : List Waiting}

theorem fault_of_apply {op : Operator} (h : apply op vs = .error f) : OfOperator f := by
  match vs with
  | [] | [_] =>
    cases h
    exact .inl rfl
  | b :: a :: vs =>
    obtain h | ⟨x, -, h⟩ := bind_eq_error.1 (apply_cons op a b vs ▸ h)
    · match op with
      | .plus | .minus | .times => cases h
      | .over =>
        rw [Operator.apply] at h
        split at h
        · cases h
          exact .inr rfl
        · cases h
    · cases h

theorem fault_of_unwind {op : Operator} (h : unwind op vs ws = .error f) : OfOperator f := by
  induction ws generalizing vs with
  | nil => cases h
  | cons w ws ih =>
    cases w with
    | opening => cases h
    | operator top =>
      by_cases ht : top.rank < op.rank
      · rw [unwind_of_free (by exact ht)] at h
        cases h
      · rw [unwind_operator (Nat.not_lt.1 ht)] at h
        obtain h | ⟨us, -, h⟩ := bind_eq_error.1 h
        · exact fault_of_apply h
        · exact ih h

/-- A closing parenthesis has no partner if no opening one waits. -/
theorem fault_of_close (h : close vs ws = .error f) :
    OfOperator f ∨ f = .unbalanced ∧ openings ws = 0 := by
  induction ws generalizing vs with
  | nil =>
    cases h
    exact .inr ⟨rfl, rfl⟩
  | cons w ws ih =>
    cases w with
    | opening => cases h
    | operator top =>
      obtain h | ⟨us, -, h⟩ := bind_eq_error.1 h
      · exact .inl (fault_of_apply h)
      · exact ih h

/-- At the end no opening parenthesis may wait. -/
theorem fault_of_finish (h : finish vs ws = .error f) :
    OfOperator f ∨ f = .unbalanced ∧ openings ws ≠ 0 := by
  induction ws generalizing vs with
  | nil => cases h
  | cons w ws ih =>
    cases w with
    | opening =>
      cases h
      exact .inr ⟨rfl, Nat.succ_ne_zero _⟩
    | operator top =>
      obtain h | ⟨us, -, h⟩ := bind_eq_error.1 h
      · exact .inl (fault_of_apply h)
      · exact ih h

/-! ## Steps and runs -/

variable {s : Stacks}

theorem fault_of_step {tok : Token} (h : s.step tok = .error f) :
    OfOperator f ∨ f = .barePercent ∨
      f = .unbalanced ∧ ∀ ts, ¬Balanced (openings s.waiting) (tok :: ts) := by
  cases tok with
  | number x => cases h
  | opening => cases h
  | closing =>
    obtain operator | ⟨rfl, no_opening⟩ := fault_of_close h
    · exact .inl operator
    · refine .inr (.inr ⟨rfl, fun ts => ?_⟩)
      rw [no_opening]
      exact id
  | operator op =>
    obtain h | ⟨t, -, h⟩ := bind_eq_error.1 h
    · exact .inl (fault_of_unwind h)
    · cases h
  | percent =>
    obtain ⟨_ | ⟨x, vs⟩, ws⟩ := s
    · cases h
      exact .inr (.inl rfl)
    · cases h

/-- A run ends early with an unmatched parenthesis only if the parentheses of the whole list do not
match. -/
theorem fault_of_run {ts : List Token} (h : s.run ts = .error f) :
    OfOperator f ∨ f = .barePercent ∨
      f = .unbalanced ∧ ¬Balanced (openings s.waiting) ts := by
  induction ts generalizing s with
  | nil => cases h
  | cons tok ts ih =>
    obtain h | ⟨t, ht, h⟩ := bind_eq_error.1 h
    · exact (fault_of_step h).imp_right (.imp_right (.imp_right fun h => h ts))
    · rw [balanced_step_iff ht]
      exact ih h

end Stacks

/-! ## Evaluations -/

/-- The faults in which the evaluation of a list that is not empty may end. -/
inductive OfEvaluation (ts : List Token) : Fault → Prop
  | missingOperand : OfEvaluation ts (.malformed .missingOperand)
  | divisionByZero : OfEvaluation ts .divisionByZero
  | barePercent : OfEvaluation ts .barePercent
  | unbalanced (h : ¬Balanced 0 ts) : OfEvaluation ts .unbalanced
  | leftover {k : Nat} (h : k ≠ 1) : OfEvaluation ts (.malformed (.leftover k))
  | notFinite {x : Float} (h : x.isFinite = false) : OfEvaluation ts (.malformed (.notFinite x))

theorem Stacks.OfOperator.ofEvaluation {ts : List Token} {f : Fault} (h : OfOperator f) :
    OfEvaluation ts f := by
  obtain rfl | rfl := h
  · exact .missingOperand
  · exact .divisionByZero

theorem Stacks.fault_of_result {ts : List Token} {vs : List Float} {f : Fault}
    (h : result vs = .error f) : OfEvaluation ts f := by
  match vs with
  | [] =>
    cases h
    exact .leftover (by decide)
  | [x] =>
    rw [result, checkFinite] at h
    split at h
    · cases h
    · rename_i hx
      cases h
      exact .notFinite (Bool.eq_false_iff.2 hx)
  | _ :: _ :: vs =>
    cases h
    exact .leftover (by simp)

/-- **The faults of evaluation.** -/
theorem fault_of_evaluate {ts : List Token} {f : Fault} (hts : ts ≠ [])
    (h : evaluate ts = .error f) : OfEvaluation ts f := by
  rw [evaluate_eq_outcome hts] at h
  obtain h | ⟨s, hs, h⟩ := bind_eq_error.1 h
  · obtain operator | rfl | ⟨rfl, hb⟩ := Stacks.fault_of_run h
    · exact operator.ofEvaluation
    · exact .barePercent
    · exact .unbalanced hb
  obtain h | ⟨vs, -, h⟩ := bind_eq_error.1 h
  · obtain operator | ⟨rfl, waiting⟩ := Stacks.fault_of_finish h
    · exact operator.ofEvaluation
    · refine .unbalanced fun hb => waiting ?_
      have hb : Balanced 0 (ts ++ []) := by rwa [List.append_nil]
      exact (Stacks.balanced_run_iff hs).1 hb
  · exact Stacks.fault_of_result h

/-! ## Parentheses -/

/-- Every parenthesis has its partner: no part from the start has more closing parentheses than
opening ones, and the whole has as many. -/
structure Matched (ts : List Token) : Prop where
  prefixes : ∀ us, us <+: ts → us.count .closing ≤ us.count .opening
  total : ts.count .closing = ts.count .opening

/-- The parts from the start are none and those that start with the first token. -/
theorem forall_prefix_cons {P : List Token → Prop} {t : Token} {ts : List Token} :
    (∀ us, us <+: t :: ts → P us) ↔ P [] ∧ ∀ us, us <+: ts → P (t :: us) := by
  constructor
  · exact fun h => ⟨h [] (List.nil_prefix), fun us hus => h _ (List.cons_prefix_cons.2 ⟨rfl, hus⟩)⟩
  · rintro ⟨hnil, hcons⟩ us hus
    cases us with
    | nil => exact hnil
    | cons u us =>
      obtain ⟨rfl, htail⟩ := List.cons_prefix_cons.1 hus
      exact hcons us htail

/-- Behind `d` open parentheses, these count as opening ones. -/
theorem balanced_iff_count {d : Nat} {ts : List Token} :
    Balanced d ts ↔ (∀ us, us <+: ts → us.count .closing ≤ d + us.count .opening) ∧
      ts.count .closing = d + ts.count .opening := by
  induction ts generalizing d with
  | nil => simp [Token.Balanced, eq_comm]
  | cons t ts ih =>
    rw [forall_prefix_cons]
    cases t with
    | number x | operator op | percent => simp [Token.Balanced, ih]
    | opening => simp [Token.Balanced, ih, Nat.add_assoc, Nat.add_comm 1]
    | closing =>
      cases d with
      | zero =>
        refine iff_of_false id fun h => ?_
        have := h.1.2 [] List.nil_prefix
        simp at this
      | succ d => simp [Token.Balanced, ih, Nat.add_right_comm]

theorem balanced_iff_matched {ts : List Token} : Balanced 0 ts ↔ Matched ts := by
  rw [balanced_iff_count]
  simp only [Nat.zero_add]
  exact ⟨fun h => ⟨h.1, h.2⟩, fun h => ⟨h.prefixes, h.total⟩⟩

/-- **Parentheses are judged by counting them**, for every list: one that has a value is matched,
and one that ends in an unmatched parenthesis is not. -/
theorem evaluate_judges_parentheses (ts : List Token) :
    (∀ x, evaluate ts = .ok x → Matched ts) ∧
      (evaluate ts = .error .unbalanced → ¬Matched ts) := by
  simp only [← balanced_iff_matched]
  refine ⟨fun x h => balanced_of_evaluate_eq_ok h, fun h => ?_⟩
  by_cases hts : ts = []
  · subst hts
    cases h
  · cases fault_of_evaluate hts h with
    | unbalanced hb => exact hb

/-- As many of either kind do not match if the closing one comes first. -/
theorem evaluate_judges_crossed_parentheses :
    Matched [.opening, .number 1, .closing] ∧ ¬Matched [.number 1, .closing, .opening] := by
  have run (x : Float) : evaluate [.opening, .number x, .closing] = checkFinite x := rfl
  have value := (run 1).trans (if_pos (by decide +kernel))
  exact ⟨(evaluate_judges_parentheses _).1 _ value, (evaluate_judges_parentheses _).2 rfl⟩

end Reckoner
