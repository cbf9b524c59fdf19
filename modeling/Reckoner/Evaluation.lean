import Reckoner.Token.Basic

/-!
# Evaluation of a list of tokens

An expression is evaluated while it is read, with two stacks: the values not used yet, and the
operators and opening parentheses whose right end has not come. An operator first carries out
those on top that bind at least as strongly; a closing parenthesis carries out all down to its
partner. `step` is the effect of one token on the stacks, `finish` what is left to do at the end.

A percent sign turns the value on top into so many hundredths of a base: of the value under it
when a sum or difference waits for it, and of one in every other place.
-/

namespace Reckoner

/-- What waits for its right end. -/
inductive Waiting
  | operator (op : Operator)
  | opening
  deriving DecidableEq

/-- The two stacks, their tops first. -/
structure Stacks where
  values : List Float
  waiting : List Waiting

namespace Stacks

/-- Nothing read yet. -/
def empty : Stacks := ⟨[], []⟩

/-- Carry out an operator on the two values on top. -/
def apply (op : Operator) : List Float → Except Fault (List Float)
  | b :: a :: rest => do return (← op.apply a b) :: rest
  | _ => .error (.malformed .missingOperand)

/-- Carry out the operators on top that bind at least as strongly as `op`. -/
def unwind (op : Operator) (values : List Float) : List Waiting → Except Fault Stacks
  | .operator top :: waiting =>
    if top.rank < op.rank then .ok ⟨values, .operator top :: waiting⟩
    else do unwind op (← apply top values) waiting
  | waiting => .ok ⟨values, waiting⟩

/-- Carry out the operators down to the nearest opening parenthesis, and remove it. -/
def close (values : List Float) : List Waiting → Except Fault Stacks
  | [] => .error .unbalanced
  | .opening :: waiting => .ok ⟨values, waiting⟩
  | .operator top :: waiting => do close (← apply top values) waiting

/-- The base of a percentage of `x`, given the values under it. -/
def base (x : Float) (values : List Float) : List Waiting → Float
  | .operator .plus :: _ | .operator .minus :: _ => values.head?.getD x
  | _ => 1

/-- The effect of one token. -/
def step (s : Stacks) : Token → Except Fault Stacks
  | .number x => .ok { s with values := x :: s.values }
  | .opening => .ok { s with waiting := .opening :: s.waiting }
  | .closing => close s.values s.waiting
  | .operator op => do
    let t ← unwind op s.values s.waiting
    return { t with waiting := .operator op :: t.waiting }
  | .percent =>
    match s.values with
    | [] => .error .barePercent
    | x :: rest => .ok { s with values := percentOf (base x rest s.waiting) x :: rest }

/-- Carry out all that still waits, from the top down. -/
def finish (values : List Float) : List Waiting → Except Fault (List Float)
  | [] => .ok values
  | .opening :: _ => .error .unbalanced
  | .operator top :: waiting => do finish (← apply top values) waiting

/-- The one value that is left at the end, if it is finite. -/
def result : List Float → Except Fault Float
  | [x] => checkFinite x
  | values => .error (.malformed (.leftover values.length))

end Stacks

/-- The value of a list of tokens. -/
def evaluate (tokens : List Token) : Except Fault Float :=
  if tokens = [] then .error .empty
  else do
    let s ← tokens.foldlM Stacks.step Stacks.empty
    Stacks.result (← Stacks.finish s.values s.waiting)

end Reckoner
