import Reckoner.Proofs.Evaluation.Run

/-!
# Stacks of tokens

The tokens that wait could be kept as they are, on a stack that could hold any token. Then it has to
be said what becomes of a token that is carried out and is no operator: some fault, the `refusal`.
And where the values at the end are counted first and the value is taken from the stack then, it has
to be said what becomes of an empty stack.

None of this ever happens. Only operators and opening parentheses wait, and a parenthesis is never
carried out; so an evaluation with such stacks is the evaluation without them, whatever the refusal
is (`TokenStacks.evaluate_eq`).
-/

namespace Reckoner

/-- The token that waits. -/
def Waiting.token : Waiting → Token
  | .operator op => .operator op
  | .opening => .opening

/-- The two stacks, with any tokens waiting. -/
structure TokenStacks where
  values : List Float
  waiting : List Token

/-- Stacks with the tokens that wait. -/
def Stacks.tokens (s : Stacks) : TokenStacks := ⟨s.values, s.waiting.map Waiting.token⟩

namespace TokenStacks

section

variable (refusal : Fault)

/-- Nothing read yet. -/
def empty : TokenStacks := ⟨[], []⟩

/-- How strongly a token binds. -/
def rank : Token → Nat
  | .operator op => op.rank
  | .number _ | .percent | .opening | .closing => 0

/-- Carry out a token on the two values on top. -/
def apply (t : Token) : List Float → Except Fault (List Float)
  | b :: a :: rest =>
    match t with
    | .operator op => do return (← op.apply a b) :: rest
    | .number _ | .percent | .opening | .closing => .error refusal
  | _ => .error (.malformed .missingOperand)

/-- Carry out the tokens on top that bind at least as strongly as `op`. -/
def unwind (op : Operator) (values : List Float) : List Token → Except Fault TokenStacks
  | [] => .ok ⟨values, []⟩
  | top :: waiting =>
    if top = .opening ∨ rank top < op.rank then .ok ⟨values, top :: waiting⟩
    else do unwind op (← apply refusal top values) waiting

/-- Carry out the tokens down to the nearest opening parenthesis, and remove it. -/
def close (values : List Float) : List Token → Except Fault TokenStacks
  | [] => .error .unbalanced
  | top :: waiting =>
    if top = .opening then .ok ⟨values, waiting⟩
    else do close (← apply refusal top values) waiting

/-- The base of a percentage of `x`, given the values under it. -/
def base (x : Float) (values : List Float) : List Token → Float
  | .operator .plus :: _ | .operator .minus :: _ => values.head?.getD x
  | _ => 1

/-- The effect of one token. -/
def step (s : TokenStacks) : Token → Except Fault TokenStacks
  | .number x => .ok { s with values := x :: s.values }
  | .opening => .ok { s with waiting := .opening :: s.waiting }
  | .closing => close refusal s.values s.waiting
  | .operator op => do
    let t ← unwind refusal op s.values s.waiting
    return { t with waiting := .operator op :: t.waiting }
  | .percent =>
    match s.values with
    | [] => .error .barePercent
    | x :: rest => .ok { s with values := percentOf (base x rest s.waiting) x :: rest }

/-- Carry out all that still waits, from the top down. -/
def finish (values : List Float) : List Token → Except Fault (List Float)
  | [] => .ok values
  | top :: waiting =>
    if top = .opening ∨ top = .closing then .error .unbalanced
    else do finish (← apply refusal top values) waiting

/-- The value that is left at the end, if it is the only one and finite. -/
def result (values : List Float) : Except Fault Float :=
  if values.length ≠ 1 then .error (.malformed (.leftover values.length))
  else
    match values with
    | [] => .error .empty
    | x :: _ => checkFinite x

/-- The value of a list of tokens. -/
def evaluate (tokens : List Token) : Except Fault Float :=
  if tokens = [] then .error .empty
  else do
    let s ← tokens.foldlM (step refusal) empty
    result (← finish refusal s.values s.waiting)

end

/-! ## The tokens that wait -/

variable (refusal : Fault) (vs : List Float) (ws : List Waiting)

theorem apply_operator (op : Operator) :
    apply refusal (.operator op) vs = Stacks.apply op vs := by
  match vs with
  | [] | [_] | _ :: _ :: _ => rfl

theorem unwind_tokens (op : Operator) :
    unwind refusal op vs (ws.map Waiting.token) =
      Stacks.unwind op vs ws >>= fun s => .ok s.tokens := by
  induction ws generalizing vs with
  | nil => rfl
  | cons w ws ih =>
    rw [List.map_cons, unwind]
    cases w with
    | opening =>
      rw [if_pos (.inl rfl)]
      rfl
    | operator top =>
      by_cases ht : top.rank < op.rank
      · rw [if_pos (.inr ht), Stacks.unwind_of_free (by exact ht), ok_bind]
        rfl
      · have stays : ¬(Token.operator top = .opening ∨ rank (.operator top) < op.rank) := by
          rintro (h | h)
          · cases h
          · exact ht h
        rw [Waiting.token, if_neg stays, Stacks.unwind_operator (Nat.not_lt.1 ht), apply_operator,
          bind_assoc]
        simp only [ih]

theorem close_tokens :
    close refusal vs (ws.map Waiting.token) =
      Stacks.close vs ws >>= fun s => .ok s.tokens := by
  induction ws generalizing vs with
  | nil => rfl
  | cons w ws ih =>
    rw [List.map_cons, close]
    cases w with
    | opening =>
      rw [Waiting.token, if_pos rfl]
      rfl
    | operator top =>
      rw [Waiting.token, if_neg (by simp), apply_operator, Stacks.close, bind_assoc]
      simp only [ih]

theorem finish_tokens : finish refusal vs (ws.map Waiting.token) = Stacks.finish vs ws := by
  induction ws generalizing vs with
  | nil => rfl
  | cons w ws ih =>
    rw [List.map_cons, finish]
    cases w with
    | opening =>
      rw [if_pos (.inl rfl)]
      rfl
    | operator top =>
      rw [Waiting.token, if_neg (by simp), apply_operator, Stacks.finish]
      simp only [ih]

theorem base_tokens (x : Float) : base x vs (ws.map Waiting.token) = Stacks.base x vs ws := by
  match ws with
  | [] | .opening :: _ => rfl
  | .operator op :: _ => cases op <;> rfl

/-- **A step on tokens is a step.** -/
theorem step_tokens (s : Stacks) (t : Token) :
    step refusal s.tokens t = s.step t >>= fun u => .ok u.tokens := by
  cases t with
  | number x => rfl
  | opening => rfl
  | closing => exact close_tokens refusal s.values s.waiting
  | operator op =>
    rw [Stacks.step_operator, bind_assoc, step, Stacks.tokens, unwind_tokens, bind_assoc]
    rfl
  | percent =>
    obtain ⟨_ | ⟨x, vs⟩, ws⟩ := s
    · rfl
    · rw [Stacks.step_percent, ok_bind, ← base_tokens]
      rfl

theorem run_tokens (s : Stacks) (ts : List Token) :
    ts.foldlM (step refusal) s.tokens = s.run ts >>= fun u => .ok u.tokens := by
  induction ts generalizing s with
  | nil => rfl
  | cons t ts ih =>
    rw [List.foldlM_cons, step_tokens, bind_assoc, Stacks.run_cons, bind_assoc]
    simp only [ok_bind, ih]

theorem result_eq : result vs = Stacks.result vs := by
  match vs with
  | [] | [_] => rfl
  | _ :: _ :: _ => exact if_pos (by simp)

/-- **No token is ever refused.** -/
theorem evaluate_eq (ts : List Token) : evaluate refusal ts = Reckoner.evaluate ts := by
  by_cases hts : ts = []
  · rw [hts]
    rfl
  · have start : empty = Stacks.empty.tokens := rfl
    rw [evaluate, if_neg hts, evaluate_eq_outcome hts, start, run_tokens, bind_assoc,
      Stacks.outcome]
    simp only [ok_bind, Stacks.tokens, finish_tokens, result_eq]

end TokenStacks

end Reckoner
