import Reckoner.Proofs.Evaluation.Run
import Reckoner.Proofs.Expression.Placement

/-!
# Evaluation along syntax trees

The tokens of an expression, read by the two stacks, leave its value on top of what was there, up
to the operators of the expression that still wait for their right end (`run_tokens`). Which ones
wait depends on the level alone: none behind a factor, the products behind a product, all of them
behind a sum. The statement is about any stacks below, so it carries through parentheses of any
depth, and the base of a percentage is what these stacks say it is. In front of tokens that end a
product nothing of it waits any more (`outcome_tokens`).

`evaluate_tokens`: a whole expression evaluates to the value that its tree has.
-/

namespace Reckoner

open Stacks Token

/-- Carry out what may still wait behind an expression of a level. -/
def Level.settle : Level → Stacks → Except Fault Stacks
  | .sum, s => unwind .plus s.values s.waiting
  | .product, s => unwind .times s.values s.waiting
  | .factor, s | .primary, s => .ok s

/-- What binds more strongly may be carried out first. -/
theorem Level.settle_settle {l l' : Level} (h : l.rank ≤ l'.rank)
    (x : Except Fault Stacks) : ((x >>= l'.settle) >>= l.settle) = x >>= l.settle := by
  rw [bind_assoc]
  refine bind_congr fun s => ?_
  cases l' with
  | primary | factor => rfl
  | product =>
    cases l with
    | product => exact @unwind_unwind .times .times h s.values s.waiting
    | sum => exact @unwind_unwind .plus .times h s.values s.waiting
    | primary | factor => exact absurd h (by decide)
  | sum =>
    cases l with
    | sum => exact @unwind_unwind .plus .plus h s.values s.waiting
    | product | primary | factor => exact absurd h (by decide)

theorem Level.settle_of_free {l : Level} {ws : List Waiting} (h : Free l.rank ws)
    (vs : List Float) : l.settle ⟨vs, ws⟩ = .ok ⟨vs, ws⟩ := by
  cases l with
  | primary | factor => rfl
  | product => exact @unwind_of_free .times _ h vs
  | sum => exact @unwind_of_free .plus _ h vs

/-- A run through an operator carries out what waits behind its left operand. -/
theorem Level.run_operator {op : Operator} {l : Level} (h : op.rank = l.rank) (s : Stacks)
    (ts us : List Token) :
    s.run (ts ++ .operator op :: us) =
      (s.run ts >>= l.settle) >>= fun t => run ⟨t.values, .operator op :: t.waiting⟩ us := by
  have step_eq (t : Stacks) : t.step (.operator op) =
      l.settle t >>= fun u => .ok ⟨u.values, .operator op :: u.waiting⟩ := by
    rw [step_operator]
    cases l with
    | sum => rw [@unwind_congr op .plus h]; rfl
    | product => rw [@unwind_congr op .times h]; rfl
    | factor | primary => cases op <;> cases h
  simp only [run_append, run_cons, step_eq, bind_assoc, ok_bind]

/-- Behind the right operand of an operator, the operator itself is carried out. -/
theorem Level.settle_pending {op : Operator} {l : Level} (h : op.rank = l.rank) (a v : Float)
    {vs : List Float} {ws : List Waiting} (free : Free l.rank ws) :
    l.settle ⟨v :: a :: vs, .operator op :: ws⟩ =
      op.apply a v >>= fun x => .ok ⟨x :: vs, ws⟩ := by
  have key (o : Operator) (ho : o.rank = l.rank) :
      unwind o (v :: a :: vs) (.operator op :: ws) =
        op.apply a v >>= fun x => .ok ⟨x :: vs, ws⟩ := by
    rw [unwind_operator (Nat.le_of_eq (ho.trans h.symm)), apply_cons, bind_assoc]
    simp only [ok_bind, unwind_of_free (ho ▸ free)]
  cases l with
  | sum => exact key .plus rfl
  | product => exact key .times rfl
  | factor | primary => cases op <;> cases h

namespace Expression

theorem tokens_ne_nil {l : Level} (e : Expression l) : e.tokens ≠ [] := by
  induction e <;> simp_all [tokens]

/-- **The tokens of an expression leave its value on the stacks.** -/
theorem run_tokens {l : Level} (e : Expression l) {vs : List Float} {ws : List Waiting} {b : Float}
    (free : Free l.rank ws) (hb : ∀ x, base x vs ws = b) :
    (run ⟨vs, ws⟩ e.tokens >>= l.settle) = e.valueOver b >>= fun v => .ok ⟨v :: vs, ws⟩ := by
  induction e generalizing vs ws b with
  | number x => rfl
  | parentheses e ih =>
    -- the sum inside starts on an opening parenthesis, where percentages are of one
    have ih : (run ⟨vs, .opening :: ws⟩ e.tokens >>= Level.settle .sum) =
        e.valueOver 1 >>= fun v => .ok ⟨v :: vs, .opening :: ws⟩ := ih trivial fun _ => rfl
    calc (run ⟨vs, ws⟩ (.opening :: e.tokens ++ [.closing]) >>= Level.settle .primary)
        = run ⟨vs, .opening :: ws⟩ e.tokens >>= fun s => close s.values s.waiting := by
          rw [List.cons_append, run_cons, step, ok_bind, run_append]
          simp only [run_singleton]
          exact bind_pure _
      _ = (run ⟨vs, .opening :: ws⟩ e.tokens >>= Level.settle .sum) >>= fun s =>
            close s.values s.waiting := by
          rw [bind_assoc]
          exact bind_congr fun s => close_eq_unwind s.values s.waiting
      _ = e.valueOver 1 >>= fun v => .ok ⟨v :: vs, ws⟩ := by
          rw [ih, bind_assoc]
          rfl
  | ofPrimary e ih => exact ih free hb
  | percent e ih =>
    have ih : run ⟨vs, ws⟩ e.tokens = _ := (bind_pure _).symm.trans (ih free hb)
    calc (run ⟨vs, ws⟩ (e.tokens ++ [.percent]) >>= Level.settle .factor)
        = run ⟨vs, ws⟩ e.tokens >>= fun s => s.step .percent := by
          rw [run_append]
          simp only [run_singleton]
          exact bind_pure _
      _ = (percent e).valueOver b >>= fun v => .ok ⟨v :: vs, ws⟩ := by
          simp only [ih, bind_assoc, ok_bind, step_percent, hb, valueOver, pure_bind]
  | ofFactor e ih =>
    have ih : run ⟨vs, ws⟩ e.tokens = _ :=
      (bind_pure _).symm.trans (ih (free.mono (by decide)) hb)
    simp only [tokens, ih, bind_assoc, ok_bind, Level.settle_of_free free, valueOver]
  | scale left op rank_eq right ihl ihr =>
    -- on top of the operator percentages are of one again
    have base_eq (a x : Float) : base x (a :: vs) (.operator op :: ws) = 1 := by
      cases op <;> first | rfl | cases rank_eq
    have ihr (a : Float) : run ⟨a :: vs, .operator op :: ws⟩ right.tokens = _ :=
      (bind_pure _).symm.trans (ihr (show op.rank < 3 by omega) (base_eq a))
    rw [tokens, Level.run_operator (l := .product) rank_eq, ihl free hb]
    simp only [bind_assoc, ok_bind, ihr, Level.settle_pending rank_eq _ _ free, valueOver]
  | ofProduct e ih =>
    rw [tokens, ← @Level.settle_settle _ .product (by decide),
      ih (free.mono (by decide)) (base_of_free free · vs), bind_assoc]
    simp only [ok_bind, Level.settle_of_free free, valueOver]
  | combine left op rank_eq right ihl ihr =>
    -- the first factor on the right takes the value on the left as its base
    have base_eq (a x : Float) : base x (a :: vs) (.operator op :: ws) = a := by
      cases op <;> first | rfl | cases rank_eq
    have ihr (a : Float) :
        (run ⟨a :: vs, .operator op :: ws⟩ right.tokens >>= Level.settle .product) = _ :=
      ihr (show op.rank < 2 by omega) (base_eq a)
    rw [tokens, Level.run_operator (l := .sum) rank_eq, ihl free (base_of_free free · vs),
      ← @Level.settle_settle _ .product (by decide)]
    simp only [bind_assoc, ok_bind]
    simp only [← bind_assoc, ihr]
    simp only [bind_assoc, ok_bind, Level.settle_pending rank_eq _ _ free, valueOver]

/-- What ends a product has everything above it carried out. -/
theorem outcome_eq_settle {ts : List Token} (hp : Placed false ts) (he : Ends .product ts)
    (s : Stacks) : s.outcome ts = Level.settle .sum s >>= fun t => t.outcome ts := by
  match ts with
  | [] =>
    simp only [outcome, run_nil, ok_bind]
    rw [finish_eq_unwind, bind_assoc]
    rfl
  | .closing :: us =>
    simp only [outcome, run_cons, step, bind_assoc]
    rw [close_eq_unwind, bind_assoc]
    rfl
  | .operator op :: us =>
    have hop : op.rank = Operator.plus.rank := by
      have : op.rank < 2 := he
      cases op <;> simp_all [Operator.rank]
    simp only [outcome, run_cons, step_operator, bind_assoc]
    rw [unwind_congr hop, ← unwind_unwind (Nat.le_refl _), bind_assoc]
    simp only [unwind_congr hop]
    rfl
  | .percent :: _ => exact he.elim
  | .number _ :: _ | .opening :: _ => exact absurd hp.1 (by simp [startsOperand])

/-- In front of what ends a product, an expression stands for its value. -/
theorem outcome_tokens {l : Level} (e : Expression l) {vs : List Float} {ws : List Waiting}
    {b : Float} (free : Free l.rank ws) (hb : ∀ x, base x vs ws = b) {ts : List Token}
    (hp : Placed false ts) (he : Ends .product ts) :
    outcome ⟨vs, ws⟩ (e.tokens ++ ts) = e.valueOver b >>= fun v => outcome ⟨v :: vs, ws⟩ ts := by
  have hl : Level.rank .sum ≤ l.rank := by cases l <;> decide
  calc outcome ⟨vs, ws⟩ (e.tokens ++ ts)
      = run ⟨vs, ws⟩ e.tokens >>= fun s => s.outcome ts := outcome_append _ _ _
    _ = (run ⟨vs, ws⟩ e.tokens >>= Level.settle .sum) >>= fun s => s.outcome ts := by
        rw [bind_assoc]
        exact bind_congr fun s => outcome_eq_settle hp he s
    _ = (run ⟨vs, ws⟩ e.tokens >>= l.settle) >>= fun s => s.outcome ts := by
        rw [← Level.settle_settle hl, bind_assoc]
        exact bind_congr fun s => (outcome_eq_settle hp he s).symm
    _ = e.valueOver b >>= fun v => outcome ⟨v :: vs, ws⟩ ts := by
        rw [e.run_tokens free hb, bind_assoc]
        rfl

/-- A whole expression leaves its value, if it is finite. -/
theorem outcome_empty_tokens (e : Expression .sum) :
    Stacks.empty.outcome e.tokens = e.valueOver 1 >>= checkFinite := by
  have free : Free (Level.rank .sum) [] := trivial
  have h : outcome ⟨[], []⟩ (e.tokens ++ []) = e.valueOver 1 >>= checkFinite :=
    e.outcome_tokens free (fun _ => rfl) rfl trivial
  rwa [List.append_nil] at h

end Expression

/-- **A whole expression evaluates to the value of its tree.** -/
theorem evaluate_tokens (e : Expression .sum) : evaluate e.tokens = e.value := by
  rw [evaluate_eq_outcome e.tokens_ne_nil, e.outcome_empty_tokens]
  rfl

end Reckoner
