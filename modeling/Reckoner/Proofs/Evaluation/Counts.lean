import Reckoner.Proofs.Evaluation.Run
import Reckoner.Proofs.Expression.Placement

/-!
# What the stacks count

An operator takes two values and leaves one, so carrying out operators keeps the number of values
less the number of waiting operators (`Stacks.Keeps`), and does not take the last value. The opening
parentheses that wait are those without a partner so far. Hence a list that has a value is balanced
(`balanced_of_evaluate_eq_ok`), and where its tokens are placed, there is exactly one value more than
operators wait, or none more while an operand is expected (`fits_run`).

The stacks never look at how tokens stand beside each other. So a list that has a value need not be
the list of an expression: `exists_tokens_eq_iff_of_evaluate_eq_ok` says that it is one exactly if
its tokens are placed.
-/

namespace Reckoner

open Token

namespace Stacks

/-- How many opening parentheses wait. -/
def openings : List Waiting → Nat
  | [] => 0
  | .opening :: ws => openings ws + 1
  | .operator _ :: ws => openings ws

/-- How many operators wait. -/
def pending : List Waiting → Nat
  | [] => 0
  | .opening :: ws => pending ws
  | .operator _ :: ws => pending ws + 1

/-- From the first stacks to the second one, each operator carried out took one value away. -/
def Keeps (vs : List Float) (ws : List Waiting) (t : Stacks) : Prop :=
  t.values.length + pending ws = vs.length + pending t.waiting

theorem length_of_apply {op : Operator} {vs us : List Float} (h : apply op vs = .ok us) :
    vs.length = us.length + 1 := by
  match vs with
  | [] | [_] => cases h
  | b :: a :: vs =>
    obtain ⟨x, -, hx⟩ := bind_eq_ok.1 h
    cases hx
    rfl

theorem ne_nil_of_apply {op : Operator} {vs us : List Float} (h : apply op vs = .ok us) :
    us ≠ [] := by
  match vs with
  | [] | [_] => cases h
  | b :: a :: vs =>
    obtain ⟨x, -, hx⟩ := bind_eq_ok.1 h
    cases hx
    exact List.cons_ne_nil _ _

theorem keeps_unwind {op : Operator} {vs : List Float} {ws : List Waiting} {t : Stacks}
    (h : unwind op vs ws = .ok t) :
    openings t.waiting = openings ws ∧ Keeps vs ws t ∧ (vs ≠ [] → t.values ≠ []) := by
  induction ws generalizing vs with
  | nil =>
    cases h
    exact ⟨rfl, rfl, id⟩
  | cons w ws ih =>
    cases w with
    | opening =>
      cases h
      exact ⟨rfl, rfl, id⟩
    | operator top =>
      by_cases ht : top.rank < op.rank
      · rw [unwind_of_free (by exact ht)] at h
        cases h
        exact ⟨rfl, rfl, id⟩
      · rw [unwind_operator (Nat.not_lt.1 ht)] at h
        obtain ⟨us, hus, h⟩ := bind_eq_ok.1 h
        obtain ⟨ho, hk, hn⟩ := ih h
        refine ⟨ho, ?_, fun _ => hn (ne_nil_of_apply hus)⟩
        have hlen := length_of_apply hus
        simp only [Keeps, pending] at hk ⊢
        omega

theorem keeps_close {vs : List Float} {ws : List Waiting} {t : Stacks} (h : close vs ws = .ok t) :
    openings ws = openings t.waiting + 1 ∧ Keeps vs ws t ∧ (vs ≠ [] → t.values ≠ []) := by
  induction ws generalizing vs with
  | nil => cases h
  | cons w ws ih =>
    cases w with
    | opening =>
      cases h
      exact ⟨rfl, rfl, id⟩
    | operator top =>
      obtain ⟨us, hus, h⟩ := bind_eq_ok.1 h
      obtain ⟨ho, hk, hn⟩ := ih h
      refine ⟨ho, ?_, fun _ => hn (ne_nil_of_apply hus)⟩
      have hlen := length_of_apply hus
      simp only [Keeps, pending] at hk ⊢
      omega

theorem keeps_finish {vs us : List Float} {ws : List Waiting} (h : finish vs ws = .ok us) :
    openings ws = 0 ∧ Keeps vs ws ⟨us, []⟩ ∧ (vs ≠ [] → us ≠ []) := by
  induction ws generalizing vs with
  | nil =>
    cases h
    exact ⟨rfl, rfl, id⟩
  | cons w ws ih =>
    cases w with
    | opening => cases h
    | operator top =>
      obtain ⟨us', hus', h⟩ := bind_eq_ok.1 h
      obtain ⟨ho, hk, hn⟩ := ih h
      refine ⟨ho, ?_, fun _ => hn (ne_nil_of_apply hus')⟩
      have hlen := length_of_apply hus'
      simp only [Keeps, pending] at hk ⊢
      omega

/-! ## Parentheses -/

/-- The parentheses that wait are those that the tokens behind have to close. -/
theorem balanced_step_iff {s t : Stacks} {tok : Token} (h : s.step tok = .ok t) {ts : List Token} :
    Balanced (openings s.waiting) (tok :: ts) ↔ Balanced (openings t.waiting) ts := by
  cases tok with
  | number x =>
    cases h
    rfl
  | opening =>
    cases h
    rfl
  | closing =>
    rw [(keeps_close h).1]
    rfl
  | operator op =>
    obtain ⟨u, hu, h⟩ := bind_eq_ok.1 h
    cases h
    exact (keeps_unwind hu).1 ▸ Iff.rfl
  | percent =>
    obtain ⟨_ | ⟨x, vs⟩, ws⟩ := s
    · cases h
    · cases h
      rfl

theorem balanced_run_iff {s t : Stacks} {ts us : List Token} (h : s.run ts = .ok t) :
    Balanced (openings s.waiting) (ts ++ us) ↔ Balanced (openings t.waiting) us := by
  induction ts generalizing s with
  | nil =>
    cases h
    rfl
  | cons tok ts ih =>
    obtain ⟨u, hu, h⟩ := bind_eq_ok.1 h
    exact (balanced_step_iff hu).trans (ih h)

/-! ## Values -/

/-- There is one value more than operators wait, or none more while an operand is expected. -/
def Fits (expects : Bool) (s : Stacks) : Prop :=
  s.values.length = pending s.waiting + if expects then 0 else 1

theorem fits_step {s t : Stacks} {tok : Token} (hs : Fits tok.startsOperand s)
    (h : s.step tok = .ok t) : Fits tok.expectsOperand t := by
  cases tok with
  | number x =>
    cases h
    simpa [Fits, startsOperand, expectsOperand] using hs
  | opening =>
    cases h
    exact hs
  | closing =>
    have hk := (keeps_close h).2.1
    simp only [Fits, startsOperand, expectsOperand, Keeps, Bool.false_eq_true, reduceIte] at hs hk ⊢
    omega
  | operator op =>
    obtain ⟨u, hu, h⟩ := bind_eq_ok.1 h
    cases h
    have hk := (keeps_unwind hu).2.1
    simp only [Fits, startsOperand, expectsOperand, Keeps, pending, Bool.false_eq_true,
      reduceIte] at hs hk ⊢
    omega
  | percent =>
    obtain ⟨_ | ⟨x, vs⟩, ws⟩ := s
    · cases h
    · cases h
      exact hs

/-- Placed tokens keep the values in step with the operators. -/
theorem fits_run {b : Bool} {s t : Stacks} {ts us : List Token} (hp : Placed b (ts ++ us))
    (hs : Fits b s) (h : s.run ts = .ok t) : Fits (expectsAfter b ts) t := by
  induction ts generalizing b s with
  | nil =>
    cases h
    exact hs
  | cons tok ts ih =>
    obtain ⟨u, hu, h⟩ := bind_eq_ok.1 h
    exact ih hp.2 (fits_step (hp.1 ▸ hs) hu) h

end Stacks

/-! ## Lists that have a value -/

theorem balanced_of_evaluate_eq_ok {ts : List Token} {x : Float} (h : evaluate ts = .ok x) :
    Balanced 0 ts := by
  by_cases hts : ts = []
  · subst hts
    rfl
  · rw [evaluate_eq_outcome hts] at h
    obtain ⟨s, hs, h⟩ := bind_eq_ok.1 h
    obtain ⟨vs, hvs, -⟩ := bind_eq_ok.1 h
    have hb : Balanced 0 (ts ++ []) :=
      (Stacks.balanced_run_iff hs).2 (Stacks.keeps_finish hvs).1
    rwa [List.append_nil] at hb

/-- **A list that has a value is the list of an expression exactly if its tokens are placed.** -/
theorem exists_tokens_eq_iff_of_evaluate_eq_ok {ts : List Token} {x : Float}
    (h : evaluate ts = .ok x) : (∃ e : Expression .sum, e.tokens = ts) ↔ Placed true ts := by
  rw [exists_tokens_eq_iff]
  exact and_iff_left (balanced_of_evaluate_eq_ok h)

/-- The product of a sum in parentheses and a percentage has a value, and its tokens are placed. -/
theorem exists_tokens_eq_parenthesised_product :
    ∃ e : Expression .sum, e.tokens = [.opening, .number 1, .operator .plus, .number 2, .closing,
      .operator .times, .number 3, .percent] :=
  have run (a b c : Float) : evaluate [.opening, .number a, .operator .plus, .number b, .closing,
      .operator .times, .number c, .percent] = checkFinite ((a + b) * percentOf 1 c) := rfl
  have h := (run 1 2 3).trans (if_pos (by decide +kernel))
  (exists_tokens_eq_iff_of_evaluate_eq_ok h).2 (by decide)

/-- An operator before its operands is carried out all the same: its list has a value, and is not
the list of an expression. -/
theorem evaluate_leading_operator :
    evaluate [.operator .plus, .number 1, .number 2] = .ok 3 ∧
      ¬∃ e : Expression .sum, e.tokens = [.operator .plus, .number 1, .number 2] := by
  have run (a b : Float) :
      evaluate [.operator .plus, .number a, .number b] = checkFinite (a + b) := rfl
  have sum_eq : (1 : Float) + 2 = 3 := by decide +kernel
  refine ⟨?_, fun h => absurd (exists_tokens_eq_iff.1 h).1 (by decide)⟩
  rw [run, sum_eq, checkFinite, if_pos (by decide +kernel)]

end Reckoner
