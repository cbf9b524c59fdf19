import Reckoner.Evaluation
import Reckoner.Proofs.Outcome

/-!
# Runs of the two stacks

A run carries the stacks through a list of tokens (`Stacks.run`). What the three ways of carrying
out operators have in common is `unwind`: a step at an operator, a closing parenthesis and the end
of the list each begin by unwinding to a rank, and unwinding to a higher rank first changes nothing
(`unwind_unwind`, `close_eq_unwind`, `finish_eq_unwind`). So a statement about what a run leaves
behind can be made up to unwinding.
-/

namespace Reckoner.Stacks

/-- The stacks after some tokens. -/
def run (s : Stacks) (ts : List Token) : Except Fault Stacks := ts.foldlM step s

@[simp] theorem run_nil (s : Stacks) : s.run [] = .ok s := rfl

theorem run_cons (s : Stacks) (t : Token) (ts : List Token) :
    s.run (t :: ts) = s.step t >>= fun u => u.run ts := rfl

theorem run_append (s : Stacks) (ts us : List Token) :
    s.run (ts ++ us) = s.run ts >>= fun u => u.run us := List.foldlM_append

theorem run_singleton (s : Stacks) (t : Token) : s.run [t] = s.step t := by
  rw [run_cons]
  exact bind_pure _

/-- What stacks make of the rest of a list. -/
def outcome (s : Stacks) (ts : List Token) : Except Fault Float :=
  s.run ts >>= fun t => finish t.values t.waiting >>= result

theorem outcome_append (s : Stacks) (ts us : List Token) :
    s.outcome (ts ++ us) = s.run ts >>= fun t => t.outcome us := by
  rw [outcome, run_append, bind_assoc]
  rfl

/-! ## Unwinding -/

/-- No operator of the rank or of a higher one is on top. -/
def Free (rank : Nat) : List Waiting → Prop
  | .operator top :: _ => top.rank < rank
  | _ => True

theorem Free.mono {r r' : Nat} (h : r ≤ r') {ws : List Waiting} (free : Free r ws) :
    Free r' ws := by
  cases ws with
  | nil => trivial
  | cons w ws =>
    cases w with
    | opening => trivial
    | operator top => exact Nat.lt_of_lt_of_le free h

theorem unwind_of_free {op : Operator} {ws : List Waiting} (h : Free op.rank ws)
    (vs : List Float) : unwind op vs ws = .ok ⟨vs, ws⟩ := by
  cases ws with
  | nil => rfl
  | cons w ws =>
    cases w with
    | opening => rfl
    | operator top => exact if_pos h

theorem unwind_operator {op top : Operator} (h : op.rank ≤ top.rank) (vs : List Float)
    (ws : List Waiting) :
    unwind op vs (.operator top :: ws) = apply top vs >>= fun us => unwind op us ws :=
  if_neg (Nat.not_lt.2 h)

/-- What is left waiting binds more weakly. -/
theorem free_of_unwind {op : Operator} {vs : List Float} {ws : List Waiting} {t : Stacks}
    (h : unwind op vs ws = .ok t) : Free op.rank t.waiting := by
  induction ws generalizing vs with
  | nil =>
    cases h
    trivial
  | cons w ws ih =>
    cases w with
    | opening =>
      cases h
      trivial
    | operator top =>
      by_cases ht : top.rank < op.rank
      · rw [unwind_of_free (by exact ht)] at h
        cases h
        exact ht
      · rw [unwind_operator (Nat.not_lt.1 ht)] at h
        obtain ⟨us, -, h⟩ := bind_eq_ok.1 h
        exact ih h

theorem apply_cons (op : Operator) (a b : Float) (vs : List Float) :
    apply op (b :: a :: vs) = op.apply a b >>= fun x => .ok (x :: vs) := rfl

/-- Only the rank of the operator that asks for it decides how far the stacks unwind. -/
theorem unwind_congr {op op' : Operator} (h : op.rank = op'.rank) (vs : List Float)
    (ws : List Waiting) : unwind op vs ws = unwind op' vs ws := by
  induction ws generalizing vs with
  | nil => rfl
  | cons w ws ih =>
    cases w with
    | opening => rfl
    | operator top => simp only [unwind, h, ih]

/-- What binds more strongly may be carried out first. -/
theorem unwind_unwind {op op' : Operator} (h : op.rank ≤ op'.rank) (vs : List Float)
    (ws : List Waiting) :
    (unwind op' vs ws >>= fun s => unwind op s.values s.waiting) = unwind op vs ws := by
  induction ws generalizing vs with
  | nil => rfl
  | cons w ws ih =>
    cases w with
    | opening => rfl
    | operator top =>
      by_cases ht : top.rank < op'.rank
      · rw [unwind_of_free (by exact ht), ok_bind]
      · have ht : op'.rank ≤ top.rank := Nat.not_lt.1 ht
        rw [unwind_operator ht, unwind_operator (Nat.le_trans h ht), bind_assoc]
        simp only [ih]

theorem plus_rank_le (op : Operator) : Operator.plus.rank ≤ op.rank := by
  cases op <;> decide

/-- A closing parenthesis first carries out every operator above its partner. -/
theorem close_eq_unwind (vs : List Float) (ws : List Waiting) :
    close vs ws = unwind .plus vs ws >>= fun s => close s.values s.waiting := by
  induction ws generalizing vs with
  | nil => rfl
  | cons w ws ih =>
    cases w with
    | opening => rfl
    | operator top =>
      rw [unwind_operator (plus_rank_le top), bind_assoc]
      simp only [← ih]
      rfl

/-- The end first carries out every operator above the last opening parenthesis. -/
theorem finish_eq_unwind (vs : List Float) (ws : List Waiting) :
    finish vs ws = unwind .plus vs ws >>= fun s => finish s.values s.waiting := by
  induction ws generalizing vs with
  | nil => rfl
  | cons w ws ih =>
    cases w with
    | opening => rfl
    | operator top =>
      rw [unwind_operator (plus_rank_le top), bind_assoc]
      simp only [← ih]
      rfl

theorem step_operator (s : Stacks) (op : Operator) :
    s.step (.operator op) =
      unwind op s.values s.waiting >>= fun t => .ok ⟨t.values, .operator op :: t.waiting⟩ := rfl

theorem step_percent (x : Float) (vs : List Float) (ws : List Waiting) :
    step ⟨x :: vs, ws⟩ .percent = .ok ⟨percentOf (base x vs ws) x :: vs, ws⟩ := rfl

/-- Under an operator that is no sum or difference, or under none, percentages are of one. -/
theorem base_of_free {ws : List Waiting} (h : Free 1 ws) (x : Float) (vs : List Float) :
    base x vs ws = 1 := by
  cases ws with
  | nil => rfl
  | cons w ws =>
    cases w with
    | opening => rfl
    | operator top => exact absurd h (Nat.not_lt.2 (plus_rank_le top))

end Reckoner.Stacks

namespace Reckoner

/-- An evaluation is a run, followed by what is left to do at the end. -/
theorem evaluate_eq_outcome {ts : List Token} (h : ts ≠ []) :
    evaluate ts = Stacks.empty.outcome ts := if_neg h

end Reckoner
