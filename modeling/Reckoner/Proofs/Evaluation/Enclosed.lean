import Reckoner.Proofs.Evaluation.Faults

/-!
# Lists in parentheses

What waits below an opening parenthesis is out of reach until this one is closed. An operator
unwinds down to it and no further, and a percentage directly above it is one of one, as it is where
nothing waits at all. So the stacks work above an opening parenthesis as they work on the ground
(`Stacks.step_above`, `Stacks.run_above`), as long as no closing parenthesis is its partner; and its
partner carries out everything above it, as the end of a list does (`Stacks.close_above_finish`).

Hence matched tokens in parentheses have the value of the tokens, or their fault, however the tokens
stand beside each other (`evaluate_enclosed`).
-/

namespace Reckoner

open Token

namespace Stacks

/-- The stacks on top of an opening parenthesis and what waits outside of it. -/
def above (s : Stacks) (outer : List Waiting) : Stacks :=
  ⟨s.values, s.waiting ++ .opening :: outer⟩

variable (outer : List Waiting)

/-! ## Carrying out operators -/

theorem unwind_above (op : Operator) (vs : List Float) (ws : List Waiting) :
    unwind op vs (ws ++ .opening :: outer) = unwind op vs ws >>= fun t => .ok (t.above outer) := by
  induction ws generalizing vs with
  | nil => rfl
  | cons w ws ih =>
    rw [List.cons_append]
    cases w with
    | opening => rfl
    | operator top =>
      by_cases ht : top.rank < op.rank
      · rw [unwind_of_free (by exact ht), unwind_of_free (by exact ht)]
        rfl
      · have ht := Nat.not_lt.1 ht
        rw [unwind_operator ht, unwind_operator ht, bind_assoc]
        simp only [ih]

/-- A closing parenthesis whose partner waits above does not come down to the outer one. -/
theorem close_above {ws : List Waiting} (h : openings ws ≠ 0) (vs : List Float) :
    close vs (ws ++ .opening :: outer) = close vs ws >>= fun t => .ok (t.above outer) := by
  induction ws generalizing vs with
  | nil => exact absurd rfl h
  | cons w ws ih =>
    cases w with
    | opening => rfl
    | operator top =>
      rw [List.cons_append, close, close, bind_assoc]
      simp only [ih h]

/-- The partner of the outer parenthesis carries out what the end of a list does. -/
theorem close_above_finish {ws : List Waiting} (h : openings ws = 0) (vs : List Float) :
    close vs (ws ++ .opening :: outer) = finish vs ws >>= fun us => .ok ⟨us, outer⟩ := by
  induction ws generalizing vs with
  | nil => rfl
  | cons w ws ih =>
    cases w with
    | opening => exact absurd h (Nat.succ_ne_zero _)
    | operator top =>
      rw [List.cons_append, close, finish, bind_assoc]
      simp only [ih h]

/-- Above an opening parenthesis percentages are of one, as they are where nothing waits. -/
theorem base_above (x : Float) (vs : List Float) (ws : List Waiting) :
    base x vs (ws ++ .opening :: outer) = base x vs ws := by
  match ws with
  | [] | .opening :: _ => rfl
  | .operator op :: _ => cases op <;> rfl

/-! ## Steps and runs -/

/-- **One step above a parenthesis**, unless it closes this one. -/
theorem step_above {s : Stacks} {tok : Token} (inside : tok = .closing → openings s.waiting ≠ 0) :
    (s.above outer).step tok = s.step tok >>= fun t => .ok (t.above outer) := by
  cases tok with
  | number x => rfl
  | opening => rfl
  | closing => exact close_above outer (inside rfl) s.values
  | operator op =>
    rw [step_operator, step_operator, above, unwind_above, bind_assoc, bind_assoc]
    rfl
  | percent =>
    obtain ⟨_ | ⟨x, vs⟩, ws⟩ := s
    · rfl
    · rw [above, step_percent, step_percent, base_above]
      rfl

/-- **A run above a parenthesis** that none of its tokens closes. The induction is on the tokens; the
parentheses that wait above are those that the rest of them has to close. -/
theorem run_above {s : Stacks} {ts : List Token} (h : Balanced (openings s.waiting) ts) :
    (s.above outer).run ts = s.run ts >>= fun t => .ok (t.above outer) := by
  induction ts generalizing s with
  | nil => rfl
  | cons tok ts ih =>
    have inside : tok = .closing → openings s.waiting ≠ 0 := by
      rintro rfl no_opening
      rw [no_opening] at h
      exact h
    rw [run_cons, run_cons, step_above outer inside, bind_assoc, bind_assoc]
    cases hs : s.step tok with
    | error f => rfl
    | ok t => exact ih ((balanced_step_iff hs).1 h)

/-- Tokens and the closing parenthesis behind them leave what the tokens leave at their end. -/
theorem run_above_closing {s : Stacks} {ts : List Token} (h : Balanced (openings s.waiting) ts) :
    (s.above outer).run (ts ++ [.closing]) =
      s.run ts >>= fun t => finish t.values t.waiting >>= fun us => .ok ⟨us, outer⟩ := by
  rw [run_append, run_above outer h, bind_assoc]
  cases ht : s.run ts with
  | error f => rfl
  | ok t =>
    have all_closed : openings t.waiting = 0 := by
      rw [← List.append_nil ts] at h
      exact (balanced_run_iff ht).1 h
    rw [ok_bind, ok_bind, ok_bind, run_singleton]
    exact close_above_finish outer all_closed t.values

end Stacks

/-- **Parentheses around matched tokens change nothing**: the value is the same and so is the fault,
whether the tokens are those of an expression or not. -/
theorem evaluate_enclosed {ts : List Token} (ne_nil : ts ≠ []) (matched : Matched ts) :
    evaluate (.opening :: ts ++ [.closing]) = evaluate ts := by
  have balanced : Balanced (Stacks.openings Stacks.empty.waiting) ts :=
    balanced_iff_matched.2 matched
  calc evaluate (.opening :: ts ++ [.closing])
      = Stacks.empty.outcome (.opening :: ts ++ [.closing]) := evaluate_eq_outcome (by simp)
    _ = (Stacks.empty.above []).run (ts ++ [.closing]) >>= fun s =>
          Stacks.finish s.values s.waiting >>= Stacks.result := rfl
    _ = Stacks.empty.outcome ts := by
      rw [Stacks.run_above_closing [] balanced, bind_assoc, Stacks.outcome]
      simp only [bind_assoc, ok_bind, Stacks.finish]
    _ = evaluate ts := (evaluate_eq_outcome ne_nil).symm

/-- Two numbers beside each other are left over with and without parentheses around them, and the
value of a list that starts with its operator stays, too. -/
theorem evaluate_enclosed_misplaced :
    (Matched [.number 1, .opening, .number 2, .closing] ∧
      evaluate [.opening, .number 1, .opening, .number 2, .closing, .closing] =
        evaluate [.number 1, .opening, .number 2, .closing]) ∧
    Matched [.operator .minus, .number 5, .number 2] ∧
      evaluate [.opening, .operator .minus, .number 5, .number 2, .closing] =
        evaluate [.operator .minus, .number 5, .number 2] := by
  have beside : Matched [.number 1, .opening, .number 2, .closing] := balanced_iff_matched.1 rfl
  have leading : Matched [.operator .minus, .number 5, .number 2] := balanced_iff_matched.1 rfl
  exact ⟨⟨beside, evaluate_enclosed (by simp) beside⟩, leading, evaluate_enclosed (by simp) leading⟩

end Reckoner
