import Reckoner.Proofs.Evaluation.Alike
import Reckoner.Proofs.Evaluation.Counts
import Reckoner.Proofs.Evaluation.Trees

/-!
# Subtracting a group from zero

A minus before a group in parentheses is read as a subtraction from zero, and nothing ties the zero
to the group. At the start of a sum the difference does not show: the factors behind the group are
multiplied into it before the subtraction or after it, and products change their sign with their
first factor (`agree_valueFrom_neg`). Nor does it show behind a plus, where the zero is added to what
stands before. `agree_evaluate_negation` says so for any tokens around the group.
-/

namespace Reckoner

open Double Stacks Token

/-! ## Products with a factor negated -/

/-- The value of a product whose first factors have the value `v`. -/
def Scaling.valueFrom (fs : Scaling) (v : Float) : Except Fault Float :=
  fs.foldlM (fun v f => do f.1.1.apply v (← f.2.valueOver 1)) v

theorem Scaling.valueFrom_cons (f : {op : Operator // op.rank = 2} × Expression .factor)
    (fs : Scaling) (v : Float) :
    valueFrom (f :: fs) v =
      f.2.valueOver 1 >>= fun x => f.1.1.apply v x >>= fun y => fs.valueFrom y := by
  rw [valueFrom, List.foldlM_cons, bind_assoc]
  rfl

theorem Expression.valueOver_scaleBy (e : Expression .product) (fs : Scaling) (b : Float) :
    (e.scaleBy fs).valueOver b = e.valueOver b >>= fs.valueFrom := by
  induction fs generalizing e with
  | nil => exact (bind_pure _).symm
  | cons f fs ih =>
    refine (ih (e.scale f.1 f.1.2 f.2)).trans ?_
    simp only [Expression.valueOver, bind_assoc]
    exact bind_congr fun v => (Scaling.valueFrom_cons f fs v).symm

/-- A product changes its sign with its first factor. -/
theorem agree_valueFrom_neg (fs : Scaling) {v w : Float} (h : Alike w (-v)) :
    Agree (fun x y => Alike y (-x)) (fs.valueFrom v) (fs.valueFrom w) := by
  induction fs generalizing v w with
  | nil => exact h
  | cons f fs ih =>
    rw [Scaling.valueFrom_cons, Scaling.valueFrom_cons]
    refine (Agree.refl (R := Eq) (fun _ => rfl) _).bind fun x _ hx => ?_
    rw [← hx]
    exact (agree_apply_neg f.1.2 h x).bind fun x y hxy => ih hxy

namespace Expression

/-- A number, as a sum. -/
def ofNumber (x : Float) : Expression .sum := .ofProduct (.ofFactor (.ofPrimary (.number x)))

/-- A sum in parentheses, as a product. -/
def group (e : Expression .sum) : Expression .product := .ofFactor (.ofPrimary (.parentheses e))

/-- A sum less a product. -/
def less (e : Expression .sum) (p : Expression .product) : Expression .sum :=
  .combine e .minus rfl p

/-- A group with factors behind it, and the group subtracted from zero with the same factors. -/
theorem agree_group_scaleBy (e : Expression .sum) (fs : Scaling) (b b' : Float) :
    Agree (fun x y => Alike y (-x)) ((e.group.scaleBy fs).valueOver b)
      ((((ofNumber 0).less e.group).group.scaleBy fs).valueOver b') := by
  rw [valueOver_scaleBy, valueOver_scaleBy]
  refine Agree.bind (R := fun x y => Alike y (-x)) ?_ fun _ _ h => agree_valueFrom_neg fs h
  change Agree _ (e.valueOver 1) (e.valueOver 1 >>= fun v => .ok (0 - v))
  cases e.valueOver 1 with
  | error f => exact rfl
  | ok v => exact zero_sub_alike v

/-- At the start of a sum, the group may be subtracted from zero before or after the factors. -/
theorem agree_zero_less (e : Expression .sum) (fs : Scaling) :
    Agree Alike (((ofNumber 0).less (e.group.scaleBy fs)).valueOver 1)
      ((ofProduct (((ofNumber 0).less e.group).group.scaleBy fs)).valueOver 1) := by
  refine Agree.symm (agree_map_right.2 ?_)
  refine ((agree_group_scaleBy e fs 0 1).mono fun x y _ h => ?_).symm
  exact (zero_sub_alike x).trans h.symm

/-- Behind a plus, zero may be added to what is on the left and the group subtracted, or the group
subtracted from zero be added. -/
theorem agree_plus_zero_less (a : Float) (e : Expression .sum) (fs : Scaling) :
    Agree Alike
      ((((ofNumber a).combine .plus rfl (.ofFactor (.ofPrimary (.number 0)))).less
        (e.group.scaleBy fs)).valueOver 1)
      (((ofNumber a).combine .plus rfl (((ofNumber 0).less e.group).group.scaleBy fs)).valueOver
        1) := by
  refine (agree_group_scaleBy e fs (a + 0) a).bind fun x y h => ?_
  change Alike (a + 0 - x) (a + y)
  rw [sub_eq_add]
  exact (add_zero_alike a).add h.symm

end Expression

/-! ## Tokens around a group -/

/-- The tokens of a minus before a group. -/
def minusGroup (e : Expression .sum) : List Token :=
  [.number 0, .operator .minus, .opening] ++ e.tokens ++ [.closing]

/-- The tokens of a group subtracted from zero, in parentheses. -/
def negatedGroup (e : Expression .sum) : List Token :=
  .opening :: minusGroup e ++ [.closing]

/-- Nothing, or something that ends with an opening parenthesis or a plus. -/
def OpensTerm (ts : List Token) : Prop :=
  ts = [] ∨ (∃ us, ts = us ++ [.opening]) ∨ ∃ us, ts = us ++ [.operator .plus]

variable (e : Expression .sum) (fs : Scaling) {vs : List Float} {ws : List Waiting}
  {rest : List Token}

/-- Sums whose values agree can stand for each other. -/
theorem agree_outcome_tokens {e e' : Expression .sum}
    (h : Agree Alike (e.valueOver 1) (e'.valueOver 1)) (free : Free 1 ws)
    (hp : Placed false rest) (he : Ends .product rest) :
    Agree Alike (outcome ⟨vs, ws⟩ (e.tokens ++ rest)) (outcome ⟨vs, ws⟩ (e'.tokens ++ rest)) := by
  rw [e.outcome_tokens free (base_of_free free · vs) hp he,
    e'.outcome_tokens free (base_of_free free · vs) hp he]
  refine h.bind fun x y hxy => ?_
  have alike : AlikeStacks ⟨x :: vs, ws⟩ ⟨y :: vs, ws⟩ := ⟨.cons hxy (AlikeValues.refl vs), rfl⟩
  exact agree_outcome alike rest

theorem agree_outcome_group (free : Free 1 ws) (hp : Placed false rest)
    (he : Ends .product rest) :
    Agree Alike (outcome ⟨vs, ws⟩ (minusGroup e ++ (fs.tokens ++ rest)))
      (outcome ⟨vs, ws⟩ (negatedGroup e ++ (fs.tokens ++ rest))) := by
  have left : minusGroup e ++ (fs.tokens ++ rest) =
      ((Expression.ofNumber 0).less (e.group.scaleBy fs)).tokens ++ rest := by
    simp [minusGroup, Expression.less, Expression.ofNumber, Expression.tokens,
      Expression.tokens_scaleBy, Expression.group]
  have right : negatedGroup e ++ (fs.tokens ++ rest) =
      (Expression.ofProduct (((Expression.ofNumber 0).less e.group).group.scaleBy fs)).tokens ++
        rest := by
    simp [minusGroup, negatedGroup, Expression.less, Expression.ofNumber, Expression.tokens,
      Expression.tokens_scaleBy, Expression.group]
  rw [left, right]
  exact agree_outcome_tokens (e.agree_zero_less fs) free hp he

theorem agree_outcome_plus_group (a : Float) (free : Free 1 ws) (hp : Placed false rest)
    (he : Ends .product rest) :
    Agree Alike
      (outcome ⟨a :: vs, .operator .plus :: ws⟩ (minusGroup e ++ (fs.tokens ++ rest)))
      (outcome ⟨a :: vs, .operator .plus :: ws⟩ (negatedGroup e ++ (fs.tokens ++ rest))) := by
  -- the value on top may as well be read as a number
  have number_plus (ts : List Token) : outcome ⟨a :: vs, .operator .plus :: ws⟩ ts =
      outcome ⟨vs, ws⟩ (.number a :: .operator .plus :: ts) := by
    simp only [outcome, run_cons, step, ok_bind, @unwind_of_free .plus _ free]
    rfl
  have left : .number a :: .operator .plus :: (minusGroup e ++ (fs.tokens ++ rest)) =
      (((Expression.ofNumber a).combine .plus rfl (.ofFactor (.ofPrimary (.number 0)))).less
        (e.group.scaleBy fs)).tokens ++ rest := by
    simp [minusGroup, Expression.less, Expression.ofNumber, Expression.tokens,
      Expression.tokens_scaleBy, Expression.group]
  have right : .number a :: .operator .plus :: (negatedGroup e ++ (fs.tokens ++ rest)) =
      ((Expression.ofNumber a).combine .plus rfl
        (((Expression.ofNumber 0).less e.group).group.scaleBy fs)).tokens ++ rest := by
    simp [minusGroup, negatedGroup, Expression.less, Expression.ofNumber, Expression.tokens,
      Expression.tokens_scaleBy, Expression.group]
  rw [number_plus, number_plus, left, right]
  exact agree_outcome_tokens (e.agree_plus_zero_less a fs) free hp he

/-- **Where a term starts or is added, a minus before a group negates the group.** -/
theorem agree_evaluate_negation {ts us : List Token} {d : Nat} (hts : OpensTerm ts)
    (placed : Placed true (ts ++ (minusGroup e ++ us))) (balanced : Balanced d us)
    (he : Ends .factor us) :
    Agree Alike (evaluate (ts ++ (minusGroup e ++ us)))
      (evaluate (ts ++ (negatedGroup e ++ us))) := by
  have hp : Placed false us := by
    have h := placed.of_append
    have : minusGroup e ++ us = .number 0 :: .operator .minus :: .opening ::
        (e.tokens ++ .closing :: us) := by simp [minusGroup]
    rw [this] at h
    exact ((e.placed_tokens_append _).1 h.2.2.2).2
  obtain ⟨fs, rest, rfl, hends, hrest, -⟩ := exists_scaling hp balanced he
  rw [evaluate_eq_outcome (by simp [minusGroup]), evaluate_eq_outcome (by simp [negatedGroup])]
  obtain rfl | ⟨vs, rfl⟩ | ⟨vs, rfl⟩ := hts
  · exact agree_outcome_group e fs trivial hrest hends
  · rw [outcome_append, outcome_append, run_append, bind_assoc, bind_assoc]
    refine (Agree.refl (R := Eq) (fun _ => rfl) _).bind fun s _ hs => ?_
    rw [← hs]
    exact agree_outcome_group e fs trivial hrest hends
  · rw [outcome_append, outcome_append]
    cases hs : Stacks.empty.run (vs ++ [.operator .plus]) with
    | error f => exact rfl
    | ok s =>
      have fits := fits_run placed (s := Stacks.empty) rfl hs
      obtain ⟨s', -, hs⟩ := bind_eq_ok.1 ((run_append _ _ _).symm.trans hs)
      obtain ⟨t, ht, hs⟩ := bind_eq_ok.1 ((run_singleton _ _).symm.trans hs)
      cases hs
      obtain ⟨us, ws⟩ := t
      cases us with
      | nil => simp [Fits, expectsAfter, expectsOperand, pending] at fits
      | cons a us => exact agree_outcome_plus_group e fs a (free_of_unwind ht) hrest hends

end Reckoner
