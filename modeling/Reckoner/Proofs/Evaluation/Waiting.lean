import Mathlib.Data.List.Chain
import Reckoner.Proofs.Evaluation.Counts

/-!
# What waits

Where operators wait on each other, each binds more strongly than the one below it
(`Stacks.Rising`): an operator is put on top once those that bind as strongly are carried out, and a
parenthesis parts what is above it from what is below. Taking from the top does not change this
(`Stacks.suffix_of_unwind`, `Stacks.suffix_of_close`), so every run keeps it (`Stacks.rising_run`).
As there are two ranks, no more than two operators ever stand together
(`length_le_two_of_pairwise`). The parentheses that wait are those opened and not closed
(`Stacks.openings_run`).
-/

namespace Reckoner

open Token

/-! ## Operators that wait on each other -/

namespace Stacks

/-- Whether the upper one may wait directly on top of the lower one: of two operators it binds more
strongly. -/
def RestsOn (upper lower : Waiting) : Prop :=
  ∀ a b, upper = .operator a → lower = .operator b → b.rank < a.rank

/-- Every operator binds more strongly than an operator directly below it. -/
def Rising (ws : List Waiting) : Prop := ws.IsChain RestsOn

variable {vs : List Float} {ws : List Waiting} {s t : Stacks} {tok : Token} {ts : List Token}

/-- Unwinding only takes from the top. -/
theorem suffix_of_unwind {op : Operator} (h : unwind op vs ws = .ok t) : t.waiting <:+ ws := by
  induction ws generalizing vs with
  | nil =>
    cases h
    exact List.suffix_rfl
  | cons w ws ih =>
    cases w with
    | opening =>
      cases h
      exact List.suffix_rfl
    | operator top =>
      by_cases ht : top.rank < op.rank
      · rw [unwind_of_free (by exact ht)] at h
        cases h
        exact List.suffix_rfl
      · rw [unwind_operator (Nat.not_lt.1 ht)] at h
        obtain ⟨us, -, h⟩ := bind_eq_ok.1 h
        exact (ih h).trans (List.suffix_cons _ _)

/-- So does a closing parenthesis. -/
theorem suffix_of_close (h : close vs ws = .ok t) : t.waiting <:+ ws := by
  induction ws generalizing vs with
  | nil => cases h
  | cons w ws ih =>
    cases w with
    | opening =>
      cases h
      exact List.suffix_cons _ _
    | operator top =>
      obtain ⟨us, -, h⟩ := bind_eq_ok.1 h
      exact (ih h).trans (List.suffix_cons _ _)

/-- An operator may wait on top of what is free of operators that bind as strongly. -/
theorem Rising.cons_operator {op : Operator} (h : Rising ws) (free : Free op.rank ws) :
    Rising (.operator op :: ws) := by
  refine List.IsChain.cons h fun w hw => ?_
  rintro a b ⟨⟩ rfl
  cases ws with
  | nil => cases hw
  | cons v ws =>
    cases hw
    exact free

theorem Rising.cons_opening (h : Rising ws) : Rising (.opening :: ws) :=
  List.IsChain.cons h fun _ _ _ _ he => by cases he

theorem rising_step (hs : Rising s.waiting) (h : s.step tok = .ok t) : Rising t.waiting := by
  cases tok with
  | number x =>
    cases h
    exact hs
  | opening =>
    cases h
    exact hs.cons_opening
  | closing => exact hs.suffix (suffix_of_close h)
  | operator op =>
    obtain ⟨u, hu, h⟩ := bind_eq_ok.1 h
    cases h
    exact Rising.cons_operator (hs.suffix (suffix_of_unwind hu)) (free_of_unwind hu)
  | percent =>
    obtain ⟨_ | ⟨x, vs⟩, ws⟩ := s
    · cases h
    · cases h
      exact hs

theorem rising_run (hs : Rising s.waiting) (h : s.run ts = .ok t) : Rising t.waiting := by
  induction ts generalizing s with
  | nil =>
    cases h
    exact hs
  | cons tok ts ih =>
    obtain ⟨u, hu, h⟩ := bind_eq_ok.1 h
    exact ih (rising_step hs hu) h

/-- Operators that stand together bind more and more strongly from the lowest to the top. -/
theorem Rising.pairwise (h : Rising ws) {ops : List Operator}
    (together : ops.map Waiting.operator <:+: ws) :
    ops.Pairwise fun upper lower : Operator => lower.rank < upper.rank := by
  have chain : (ops.map Waiting.operator).IsChain RestsOn := h.infix together
  rw [List.isChain_map] at chain
  have ranks : (ops.map Operator.rank).IsChain (· > ·) :=
    (List.isChain_map _).2 (chain.imp fun a b rests => rests a b rfl rfl)
  exact List.pairwise_map.1 (List.isChain_iff_pairwise.1 ranks)

end Stacks

/-- There are two ranks, so no more than two operators can bind more and more strongly. -/
theorem length_le_two_of_pairwise {ops : List Operator}
    (h : ops.Pairwise fun upper lower : Operator => lower.rank < upper.rank) : ops.length ≤ 2 := by
  match ops with
  | [] | [_] | [_, _] => simp
  | a :: b :: c :: rest =>
    have weaker : b.rank < a.rank := List.rel_of_pairwise_cons h List.mem_cons_self
    have weakest : c.rank < b.rank := List.rel_of_pairwise_cons h.of_cons List.mem_cons_self
    have low : 1 ≤ c.rank := by cases c <;> decide
    have high : a.rank ≤ 2 := by cases a <;> decide
    omega

namespace Stacks

variable {s t : Stacks} {tok : Token} {ts : List Token}

/-! ## Parentheses -/

/-- An opening parenthesis waits, and a closing one takes the last that does. -/
theorem openings_step (h : s.step tok = .ok t) :
    openings t.waiting + [tok].count .closing = openings s.waiting + [tok].count .opening := by
  cases tok with
  | number x | opening =>
    cases h
    rfl
  | closing => exact (keeps_close h).1.symm
  | operator op =>
    obtain ⟨u, hu, h⟩ := bind_eq_ok.1 h
    cases h
    exact (keeps_unwind hu).1
  | percent =>
    obtain ⟨_ | ⟨x, vs⟩, ws⟩ := s
    · cases h
    · cases h
      rfl

/-- **The parentheses that wait** are those opened and not closed. -/
theorem openings_run (h : s.run ts = .ok t) :
    openings t.waiting + ts.count .closing = openings s.waiting + ts.count .opening := by
  induction ts generalizing s with
  | nil =>
    cases h
    rfl
  | cons tok ts ih =>
    obtain ⟨u, hu, h⟩ := bind_eq_ok.1 h
    have first := openings_step hu
    have rest := ih h
    rw [← List.singleton_append, List.count_append, List.count_append]
    omega

end Stacks

end Reckoner
