import Reckoner.Proofs.Evaluation.Operands
import Reckoner.Proofs.Evaluation.Waiting

/-!
# The operators that have been carried out

An operator that is read waits until it is carried out. To say which ones have been, an evaluation on
stacks of tokens keeps a record of them (`Ledger`). The record is only added to: without it the
evaluation is the usual one (`Ledger.run_toStacks`). Each operator that was read either waits or is
recorded, once (`Ledger.perm_run`), so between two tokens the values are the numbers less the
operators recorded. `ledger_invariant` says this along with what is known of the tokens that wait.
-/

namespace Reckoner

open Token

/-! ## The record -/

/-- Stacks of tokens, with a record of the tokens that have been carried out, the last one first. -/
structure Ledger where
  values : List Float
  waiting : List Token
  carried : List Token

namespace Ledger

/-- The stacks without the record. -/
def toStacks (l : Ledger) : TokenStacks := ⟨l.values, l.waiting⟩

section

variable (refusal : Fault)

/-- Nothing read yet. -/
def empty : Ledger := ⟨[], [], []⟩

/-- Carry out and record the tokens on top that bind at least as strongly as `op`. -/
def unwind (op : Operator) (values : List Float) (carried : List Token) :
    List Token → Except Fault Ledger
  | [] => .ok ⟨values, [], carried⟩
  | top :: waiting =>
    if top = .opening ∨ TokenStacks.rank top < op.rank then .ok ⟨values, top :: waiting, carried⟩
    else do unwind op (← TokenStacks.apply refusal top values) (top :: carried) waiting

/-- Carry out and record the tokens down to the nearest opening parenthesis, and remove it. -/
def close (values : List Float) (carried : List Token) : List Token → Except Fault Ledger
  | [] => .error .unbalanced
  | top :: waiting =>
    if top = .opening then .ok ⟨values, waiting, carried⟩
    else do close (← TokenStacks.apply refusal top values) (top :: carried) waiting

/-- The effect of one token. -/
def step (l : Ledger) : Token → Except Fault Ledger
  | .number x => .ok { l with values := x :: l.values }
  | .opening => .ok { l with waiting := .opening :: l.waiting }
  | .closing => close refusal l.values l.carried l.waiting
  | .operator op => do
    let m ← unwind refusal op l.values l.carried l.waiting
    return { m with waiting := .operator op :: m.waiting }
  | .percent =>
    match l.values with
    | [] => .error .barePercent
    | x :: rest =>
      .ok { l with values := percentOf (TokenStacks.base x rest l.waiting) x :: rest }

/-- The ledger after some tokens. -/
def run (l : Ledger) (ts : List Token) : Except Fault Ledger := ts.foldlM (step refusal) l

end

/-! ### The evaluation without the record -/

variable (refusal : Fault) (vs : List Float) (done ws : List Token)

theorem unwind_toStacks (op : Operator) :
    (unwind refusal op vs done ws >>= fun m => .ok m.toStacks) =
      TokenStacks.unwind refusal op vs ws := by
  induction ws generalizing vs done with
  | nil => rfl
  | cons top ws ih =>
    rw [unwind, TokenStacks.unwind]
    split
    · rfl
    · rw [bind_assoc]
      simp only [ih]

theorem close_toStacks :
    (close refusal vs done ws >>= fun m => .ok m.toStacks) = TokenStacks.close refusal vs ws := by
  induction ws generalizing vs done with
  | nil => rfl
  | cons top ws ih =>
    rw [close, TokenStacks.close]
    split
    · rfl
    · rw [bind_assoc]
      simp only [ih]

/-- **A step without the record is a step.** -/
theorem step_toStacks (l : Ledger) (tok : Token) :
    (l.step refusal tok >>= fun m => .ok m.toStacks) = l.toStacks.step refusal tok := by
  cases tok with
  | number x | opening => rfl
  | closing => exact close_toStacks refusal l.values l.carried l.waiting
  | operator op =>
    rw [step, TokenStacks.step, toStacks, ← unwind_toStacks refusal _ l.carried, bind_assoc,
      bind_assoc]
    rfl
  | percent =>
    obtain ⟨_ | ⟨x, vs⟩, ws, done⟩ := l
    · rfl
    · rfl

theorem run_toStacks (l : Ledger) (ts : List Token) :
    (l.run refusal ts >>= fun m => .ok m.toStacks) =
      ts.foldlM (TokenStacks.step refusal) l.toStacks := by
  induction ts generalizing l with
  | nil => rfl
  | cons tok ts ih =>
    rw [run, List.foldlM_cons, bind_assoc, List.foldlM_cons, ← step_toStacks, bind_assoc]
    simp only [ok_bind, ← ih, run]

/-! ### Operators -/

variable {refusal : Fault} {vs us : List Float} {done ws : List Token} {l m : Ledger} {tok : Token}
  {ts : List Token}

/-- Only operators are carried out. -/
theorem isOperator_of_apply (h : TokenStacks.apply refusal tok vs = .ok us) :
    tok.isOperator = true := by
  match vs with
  | [] | [_] => cases h
  | _ :: _ :: _ =>
    cases tok with
    | operator op => rfl
    | number _ | percent | opening | closing => cases h

/-- The operators that are recorded and those that wait. -/
def operators (carried waiting : List Token) : List Token := carried ++ waiting.filter isOperator

theorem perm_carry (h : tok.isOperator = true) :
    (operators (tok :: done) ws).Perm (operators done (tok :: ws)) := by
  rw [operators, operators, List.filter_cons_of_pos h, List.cons_append]
  exact List.perm_middle.symm

theorem perm_unwind {op : Operator} (h : unwind refusal op vs done ws = .ok m) :
    (operators m.carried m.waiting).Perm (operators done ws) := by
  induction ws generalizing vs done with
  | nil =>
    cases h
    exact .rfl
  | cons top ws ih =>
    rw [unwind] at h
    split at h
    · cases h
      exact .rfl
    · obtain ⟨us, hus, h⟩ := bind_eq_ok.1 h
      exact (ih h).trans (perm_carry (isOperator_of_apply hus))

theorem perm_close (h : close refusal vs done ws = .ok m) :
    (operators m.carried m.waiting).Perm (operators done ws) := by
  induction ws generalizing vs done with
  | nil => cases h
  | cons top ws ih =>
    rw [close] at h
    split at h
    · rename_i opening
      cases h
      rw [opening]
      exact .rfl
    · obtain ⟨us, hus, h⟩ := bind_eq_ok.1 h
      exact (ih h).trans (perm_carry (isOperator_of_apply hus))

theorem perm_step (h : l.step refusal tok = .ok m) :
    (operators m.carried m.waiting).Perm
      ([tok].filter isOperator ++ operators l.carried l.waiting) := by
  cases tok with
  | number x | opening =>
    cases h
    exact .rfl
  | closing => exact perm_close h
  | operator op =>
    obtain ⟨u, hu, h⟩ := bind_eq_ok.1 h
    cases h
    exact List.perm_middle.trans ((perm_unwind hu).cons _)
  | percent =>
    obtain ⟨_ | ⟨x, vs⟩, ws, done⟩ := l
    · cases h
    · cases h
      exact .rfl

/-- **Each operator that is read waits or is recorded**, once. -/
theorem perm_run (h : l.run refusal ts = .ok m) :
    (operators m.carried m.waiting).Perm
      (ts.filter isOperator ++ operators l.carried l.waiting) := by
  induction ts generalizing l with
  | nil =>
    cases h
    exact .rfl
  | cons tok ts ih =>
    obtain ⟨u, hu, h⟩ := bind_eq_ok.1 h
    refine (ih h).trans (((perm_step hu).append_left _).trans ?_)
    rw [← List.append_assoc, ← List.singleton_append (l := ts), List.filter_append]
    exact List.perm_append_comm.append_right _

/-! ### What holds between two tokens -/

/-- What the stacks and the record have to do with the tokens that were read. -/
structure Holds (l : Ledger) (ts : List Token) : Prop where
  /-- Only operators and opening parentheses wait. -/
  waiting : ∀ tok ∈ l.waiting, tok = .opening ∨ ∃ op, tok = .operator op
  /-- Operators that stand together bind more and more strongly from the lowest to the top. -/
  rising : ∀ ops : List Operator, ops.map Token.operator <:+: l.waiting →
    (ops.Pairwise fun upper lower : Operator => lower.rank < upper.rank) ∧ ops.length ≤ 2
  /-- The parentheses that wait are those opened and not closed. -/
  openings : l.waiting.count .opening + ts.count .closing = ts.count .opening
  /-- The values are the numbers less the operators carried out. -/
  values : l.values.length + l.carried.length = ts.countP isNumber
  /-- Each operator that was read is carried out or waits, once. -/
  operators : (l.carried ++ l.waiting.filter isOperator).Perm (ts.filter isOperator)

end Ledger

/-! ## The tokens that wait -/

theorem Waiting.token_injective : Function.Injective Waiting.token := by
  intro w v h
  cases w <;> cases v <;> cases h <;> rfl

theorem Stacks.openings_eq_count (ws : List Waiting) :
    openings ws = (ws.map Waiting.token).count .opening := by
  induction ws with
  | nil => rfl
  | cons w ws ih => cases w <;> simp [openings, Waiting.token, ih]

theorem Stacks.pending_eq_length (ws : List Waiting) :
    pending ws = ((ws.map Waiting.token).filter isOperator).length := by
  induction ws with
  | nil => rfl
  | cons w ws ih => cases w <;> simp [pending, Waiting.token, isOperator, List.filter_cons, ih]

/-- Operators that stand together as tokens do so as they wait. -/
theorem Waiting.infix_of_infix_token {ops : List Operator} {ws : List Waiting}
    (h : ops.map Token.operator <:+: ws.map Waiting.token) : ops.map Waiting.operator <:+: ws := by
  obtain ⟨part, hpart, he⟩ := List.infix_map_iff.1 h
  have same : (ops.map Waiting.operator).map Waiting.token = part.map Waiting.token := by
    rw [List.map_map, ← he]
    rfl
  rwa [List.map_injective_iff.2 Waiting.token_injective same]

/-- A ledger has the stacks of a run of the evaluation. -/
theorem Ledger.exists_run {refusal : Fault} {ts : List Token} {l : Ledger}
    (h : empty.run refusal ts = .ok l) :
    ∃ s, Stacks.empty.run ts = .ok s ∧ s.tokens = l.toStacks := by
  have erased := run_toStacks refusal empty ts
  rw [h, ok_bind] at erased
  have usual := (TokenStacks.run_tokens refusal Stacks.empty ts).symm.trans erased.symm
  obtain ⟨s, hs, he⟩ := bind_eq_ok.1 usual
  exact ⟨s, hs, Except.ok.inj he⟩

theorem Ledger.holds_of_run {refusal : Fault} {ts : List Token} {l : Ledger}
    (h : empty.run refusal ts = .ok l) : l.Holds ts := by
  obtain ⟨s, hs, he⟩ := exists_run h
  have values_eq : s.values = l.values := congrArg TokenStacks.values he
  have waiting_eq : s.waiting.map Waiting.token = l.waiting := congrArg TokenStacks.waiting he
  have operators : (l.carried ++ l.waiting.filter isOperator).Perm (ts.filter isOperator) := by
    have perm := perm_run h
    rwa [Ledger.operators, Ledger.operators, empty, List.filter_nil, List.append_nil,
      List.append_nil] at perm
  constructor
  case waiting =>
    rw [← waiting_eq]
    intro tok htok
    obtain ⟨w, -, rfl⟩ := List.mem_map.1 htok
    cases w with
    | opening => exact .inl rfl
    | operator op => exact .inr ⟨op, rfl⟩
  case rising =>
    rw [← waiting_eq]
    intro ops together
    have start : Stacks.Rising Stacks.empty.waiting := List.isChain_nil
    have rising := Stacks.rising_run start hs
    have pairwise := rising.pairwise (Waiting.infix_of_infix_token together)
    exact ⟨pairwise, length_le_two_of_pairwise pairwise⟩
  case openings =>
    rw [← waiting_eq, ← Stacks.openings_eq_count]
    exact (Stacks.openings_run hs).trans (Nat.zero_add _)
  case values =>
    have balance := Stacks.balance_run hs
    have lengths := operators.length_eq
    rw [List.length_append, ← List.countP_eq_length_filter (l := ts), ← waiting_eq,
      ← Stacks.pending_eq_length] at lengths
    simp only [Stacks.empty, Stacks.pending, List.length_nil, values_eq] at balance
    omega
  case operators => exact operators

/-- **What holds between two tokens**, for every list. The record does not change the evaluation; and
after any tokens that raise no fault only operators and opening parentheses wait, operators that
stand together bind more and more strongly and are two at most, the parentheses that wait are those
opened and not closed, and the values are the numbers less the operators carried out. -/
theorem ledger_invariant (refusal : Fault) (ts : List Token) :
    (Ledger.empty.run refusal ts >>= fun l => .ok l.toStacks) =
        (Stacks.empty.run ts >>= fun s => .ok s.tokens) ∧
      ∀ l, Ledger.empty.run refusal ts = .ok l → l.Holds ts :=
  ⟨(Ledger.run_toStacks refusal .empty ts).trans
    (TokenStacks.run_tokens refusal Stacks.empty ts), fun _ => Ledger.holds_of_run⟩

/-- In the middle of `2 * 3 + ( 4 - 5 * 6` one operator has been carried out, and four values and
three operators are left around a parenthesis. -/
theorem ledger_invariant_middle :
    ∃ l, Ledger.empty.run .unrecognised [.number 2, .operator .times, .number 3, .operator .plus,
        .opening, .number 4, .operator .minus, .number 5, .operator .times, .number 6] = .ok l ∧
      l.waiting = [.operator .times, .operator .minus, .opening, .operator .plus] ∧
      l.carried = [.operator .times] ∧ l.values.length = 4 ∧
      l.Holds [.number 2, .operator .times, .number 3, .operator .plus,
        .opening, .number 4, .operator .minus, .number 5, .operator .times, .number 6] := by
  have run (a b c d e : Float) : Ledger.empty.run .unrecognised [.number a, .operator .times,
      .number b, .operator .plus, .opening, .number c, .operator .minus, .number d,
      .operator .times, .number e] =
    .ok ⟨[e, d, c, a * b], [.operator .times, .operator .minus, .opening, .operator .plus],
      [.operator .times]⟩ := rfl
  exact ⟨_, run 2 3 4 5 6, rfl, rfl, rfl, (ledger_invariant _ _).2 _ (run 2 3 4 5 6)⟩

end Reckoner
