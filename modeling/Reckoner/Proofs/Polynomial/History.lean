import Reckoner.Proofs.Double.NotANumber
import Reckoner.Proofs.Equation.Finite

/-!
# Histories of polynomials

Polynomials come about by reading sides of equations and by taking differences of polynomials that
came about before, in any order and number (`history?`). The sums of a reader can be infinite and
the difference of infinities is no number; all the same no coefficient in a history is a NaN, since
only finite numbers are added and no bound holds of a NaN (`isNaN_of_mem_read`,
`isNaN_of_mem_sub`). Each polynomial of a history is what its operation gives behind the earlier ones
(`records_of_history?`), so what all operations give holds throughout (`history?_invariant`).
-/

namespace Reckoner.Polynomial

open Double

/-! ## Not a number -/

theorem coeff_of_mem {p : Polynomial} {t : ℕ × Float} (h : t ∈ p.monomials) :
    p.coeff t.1 = t.2 := by
  obtain ⟨k, hk, hc⟩ := mem_monomials.1 h
  rw [← hk, coeff_eq_getD, hc, Option.getD_some]

/-- Whatever a text states, no sum of like terms is a NaN. -/
theorem isNaN_of_mem_read {text : List Char} {p : Polynomial} (h : ofText? text = some p)
    {t : ℕ × Float} (ht : t ∈ p.monomials) : t.2.isNaN = false := by
  obtain ⟨ts, states, total⟩ := ofText?_eq_some_iff_states.1 h
  have zero_number : (0 : Float).isNaN = false := rfl
  rw [← coeff_of_mem ht, total.coeff_eq]
  refine isNaN_foldl_add (fun x hx => ?_) zero_number
  obtain ⟨u, hu, rfl⟩ := List.mem_map.1 hx
  exact states.isSum.isFinite u (List.mem_filter.1 hu).1

/-- Nothing that counts as zero is left in a difference. -/
theorem tolerance_le_of_mem_sub {p q : Polynomial} {t : ℕ × Float}
    (h : t ∈ (p.sub q).monomials) : tolerance ≤ t.2.abs := by
  obtain ⟨k, -, hk⟩ := mem_monomials.1 h
  rw [get_sub] at hk
  exact le_abs_of_subCoeff hk

theorem isNaN_of_mem_sub {p q : Polynomial} {t : ℕ × Float} (h : t ∈ (p.sub q).monomials) :
    t.2.isNaN = false :=
  isNaN_eq_false_of_le_abs (tolerance_le_of_mem_sub h)

/-! ## Differences with itself and with nothing -/

theorem get_zero (k : Fin (maxPower + 1)) : zero.terms.get k = none :=
  Vector.getElem_replicate k.isLt

/-- Nothing is left of a coefficient that is taken from itself, infinite ones included. -/
theorem keep_sub_self (c : Float) : subCoeff.keep (c - c) = none := by
  obtain zero | nan := isZero_sub_self c
  · exact keep_of_isZero zero
  · refine if_neg fun h => ?_
    rw [isNaN_eq_false_of_le_abs h] at nan
    cases nan

theorem sub_self (p : Polynomial) : p.sub p = zero :=
  ext_get fun k => by
    rw [get_sub, get_zero]
    cases p.terms.get k with
    | none => rfl
    | some c => exact keep_sub_self c

/-- What has no coefficient that counts as zero stays when nothing is taken from it. -/
theorem sub_zero {p : Polynomial} (h : ∀ t ∈ p.monomials, tolerance ≤ t.2.abs) :
    p.sub zero = p :=
  ext_get fun k => by
    rw [get_sub, get_zero]
    cases hk : p.terms.get k with
    | none => rfl
    | some c => exact if_pos (h (k, c) (val_mem_monomials.2 hk))

/-- A polynomial without NaN equals itself. -/
theorem same_self {p : Polynomial} (h : ∀ t ∈ p.monomials, t.2.isNaN = false) :
    p.same p = true := by
  rw [same, Vector.beq_eq_decide, decide_eq_true_iff]
  intro k hk
  cases hc : p.terms[k] with
  | none => rfl
  | some c => exact beq_self (h (k, c) (mem_monomials.2 ⟨⟨k, hk⟩, rfl, hc⟩))

/-! ## Histories -/

/-- How a polynomial comes about: a side of an equation is read, or one of the polynomials so far is
taken from another one. -/
inductive Operation
  | read (side : List Char)
  | sub (i j : ℕ)

/-- What an operation gives behind the polynomials `ps`, if it refers to these alone. A side that is
refused stands for the polynomial without terms. -/
def Operation.result? (ps : List Polynomial) : Operation → Option Polynomial
  | .read side => some ((ofText? side).getD zero)
  | .sub i j => do return (← ps[i]?).sub (← ps[j]?)

/-- The polynomials so far, and behind them the one that an operation gives. -/
def Operation.extend? (op : Operation) (ps : List Polynomial) : Option (List Polynomial) :=
  (op.result? ps).map fun p => ps ++ [p]

/-- The polynomials that come about by operations, one after the other. -/
def history? (ops : List Operation) : Option (List Polynomial) :=
  ops.foldlM (fun ps op => op.extend? ps) []

theorem history?_append_singleton (ops : List Operation) (op : Operation) :
    history? (ops ++ [op]) = (history? ops).bind op.extend? := by
  simp only [history?, List.foldlM_append, List.foldlM_cons, List.foldlM_nil, bind_pure,
    Option.bind_eq_bind]

/-- Each polynomial is what its operation gives behind the earlier ones. -/
structure Records (ops : List Operation) (ps : List Polynomial) : Prop where
  length_eq : ps.length = ops.length
  result_eq {n : ℕ} {op : Operation} (h : ops[n]? = some op) :
    ∃ p, ps[n]? = some p ∧ op.result? (ps.take n) = some p

theorem Records.append {ops : List Operation} {ps : List Polynomial} (h : Records ops ps)
    {op : Operation} {p : Polynomial} (hp : op.result? ps = some p) :
    Records (ops ++ [op]) (ps ++ [p]) := by
  refine ⟨by simp [h.length_eq], fun {n op'} hop => ?_⟩
  obtain hn | rfl | hn := Nat.lt_trichotomy n ops.length
  · rw [List.getElem?_append_left hn] at hop
    have hn' : n < ps.length := h.length_eq.symm ▸ hn
    rw [List.getElem?_append_left hn', List.take_append_of_le_length hn'.le]
    exact h.result_eq hop
  · rw [List.getElem?_append_right le_rfl, Nat.sub_self] at hop
    cases hop
    refine ⟨p, by simp [← h.length_eq], ?_⟩
    rwa [← h.length_eq, List.take_left]
  · rw [List.getElem?_eq_none (by simp; omega)] at hop
    cases hop

/-- **A history records its operations.** -/
theorem records_of_history? {ops : List Operation} {ps : List Polynomial}
    (h : history? ops = some ps) : Records ops ps := by
  induction ops using List.reverseRecOn generalizing ps with
  | nil =>
    cases h
    exact ⟨rfl, fun hop => by cases hop⟩
  | append_singleton ops op ih =>
    rw [history?_append_singleton] at h
    obtain ⟨qs, hqs, h⟩ := Option.bind_eq_some_iff.1 h
    obtain ⟨p, hp, rfl⟩ := Option.map_eq_some_iff.1 h
    exact (ih hqs).append hp

theorem Operation.result?_sub {ps : List Polynomial} {i j : ℕ} {d : Polynomial} :
    (Operation.sub i j).result? ps = some d ↔
      ∃ p q, ps[i]? = some p ∧ ps[j]? = some q ∧ p.sub q = d := by
  constructor
  · intro h
    obtain ⟨p, hp, h⟩ := Option.bind_eq_some_iff.1 h
    obtain ⟨q, hq, h⟩ := Option.bind_eq_some_iff.1 h
    exact ⟨p, q, hp, hq, Option.some.inj h⟩
  · rintro ⟨p, q, hp, hq, rfl⟩
    rw [result?, hp, hq]
    rfl

/-- Operations that refer to earlier polynomials alone. -/
def LooksBack (ops : List Operation) : Prop :=
  ∀ n i j : ℕ, ops[n]? = some (.sub i j) → i < n ∧ j < n

theorem looksBack_append_singleton {ops : List Operation} {op : Operation} :
    LooksBack (ops ++ [op]) ↔
      LooksBack ops ∧ ∀ i j : ℕ, op = .sub i j → i < ops.length ∧ j < ops.length := by
  constructor
  · intro h
    refine ⟨fun n i j hop => h n i j ?_, fun i j hop => h ops.length i j ?_⟩
    · rw [List.getElem?_append_left (List.getElem?_eq_some_iff.1 hop).1, hop]
    · simp [hop]
  · rintro ⟨h, last⟩ n i j hop
    obtain hn | rfl | hn := Nat.lt_trichotomy n ops.length
    · rw [List.getElem?_append_left hn] at hop
      exact h n i j hop
    · exact last i j (by simpa using hop)
    · rw [List.getElem?_eq_none (by simp; omega)] at hop
      cases hop

/-- **Operations have a history** if they look back. -/
theorem exists_history?_iff {ops : List Operation} :
    (∃ ps, history? ops = some ps) ↔ LooksBack ops := by
  induction ops using List.reverseRecOn with
  | nil => exact iff_of_true ⟨[], rfl⟩ fun n i j h => by cases h
  | append_singleton ops op ih =>
    rw [looksBack_append_singleton, ← ih]
    have extends_iff {ps : List Polynomial} (hps : history? ops = some ps) :
        (∃ p, op.result? ps = some p) ↔
          ∀ i j : ℕ, op = .sub i j → i < ops.length ∧ j < ops.length := by
      rw [← (records_of_history? hps).length_eq]
      cases op with
      | read side => exact iff_of_true ⟨_, rfl⟩ fun i j h => by cases h
      | sub i j =>
        simp only [Operation.result?_sub, Operation.sub.injEq, and_imp]
        constructor
        · rintro ⟨_, p, q, hp, hq, -⟩ _ _ rfl rfl
          exact ⟨(List.getElem?_eq_some_iff.1 hp).1, (List.getElem?_eq_some_iff.1 hq).1⟩
        · intro h
          obtain ⟨hi, hj⟩ := h i j rfl rfl
          exact ⟨_, _, _, List.getElem?_eq_getElem hi, List.getElem?_eq_getElem hj, rfl⟩
    rw [history?_append_singleton]
    constructor
    · rintro ⟨_, h⟩
      obtain ⟨ps, hps, h⟩ := Option.bind_eq_some_iff.1 h
      obtain ⟨p, hp, -⟩ := Option.map_eq_some_iff.1 h
      exact ⟨⟨ps, hps⟩, (extends_iff hps).1 ⟨p, hp⟩⟩
    · rintro ⟨⟨ps, hps⟩, refers⟩
      obtain ⟨p, hp⟩ := (extends_iff hps).2 refers
      exact ⟨_, by rw [hps, Option.bind_some, Operation.extend?, hp, Option.map_some]⟩

/-- **No operation gives a NaN**, neither reading nor a difference. -/
theorem isNaN_of_result? {ps : List Polynomial} {op : Operation} {p : Polynomial}
    (h : op.result? ps = some p) {t : ℕ × Float} (ht : t ∈ p.monomials) : t.2.isNaN = false := by
  cases op with
  | read side =>
    cases hside : ofText? side with
    | none =>
      rw [Operation.result?, hside] at h
      cases h
      obtain ⟨k, -, hk⟩ := mem_monomials.1 ht
      rw [Option.getD_none, get_zero] at hk
      cases hk
    | some q =>
      rw [Operation.result?, hside] at h
      cases h
      exact isNaN_of_mem_read hside ht
  | sub i j =>
    obtain ⟨p, q, -, -, rfl⟩ := Operation.result?_sub.1 h
    exact isNaN_of_mem_sub ht

/-- **What holds of the polynomials of every history.** Operations that refer to earlier polynomials
have one. None of its polynomials has a power above six or a NaN, and each leaves nothing when it is
taken from itself. A difference in it has no coefficient that counts as zero and no greater degree
than the two it comes from, and it stays when nothing is taken from it. -/
theorem history?_invariant (ops : List Operation) :
    ((∃ ps, history? ops = some ps) ↔ LooksBack ops) ∧
    ∀ ps, history? ops = some ps → ps.length = ops.length ∧
      (∀ p ∈ ps, (∀ t ∈ p.monomials, t.1 ≤ 6 ∧ t.2.isNaN = false) ∧ p.sub p = zero) ∧
      ∀ n i j : ℕ, ops[n]? = some (.sub i j) →
        ∃ p q d, ps[i]? = some p ∧ ps[j]? = some q ∧ ps[n]? = some d ∧ d = p.sub q ∧
          (∀ t ∈ d.monomials, tolerance ≤ t.2.abs) ∧ d.degree ≤ max p.degree q.degree ∧
          d.sub zero = d ∧ (d.sub zero).same d = true := by
  refine ⟨exists_history?_iff, fun ps h => ?_⟩
  have records := records_of_history? h
  refine ⟨records.length_eq, fun p hp => ⟨fun t ht => ⟨le_maxPower_of_mem ht, ?_⟩, sub_self p⟩,
    fun n i j hop => ?_⟩
  · obtain ⟨n, hn⟩ := List.mem_iff_getElem?.1 hp
    have hlt : n < ops.length := records.length_eq ▸ (List.getElem?_eq_some_iff.1 hn).1
    obtain ⟨q, hq, hresult⟩ := records.result_eq (List.getElem?_eq_getElem hlt)
    obtain rfl : p = q := Option.some.inj (hn.symm.trans hq)
    exact isNaN_of_result? hresult ht
  · obtain ⟨d, hd, hresult⟩ := records.result_eq hop
    obtain ⟨p, q, hp, hq, rfl⟩ := Operation.result?_sub.1 hresult
    have before {k : ℕ} {r : Polynomial} (hk : (ps.take n)[k]? = some r) : ps[k]? = some r := by
      rw [List.getElem?_take] at hk
      split at hk
      · exact hk
      · cases hk
    have kept : ∀ t ∈ (p.sub q).monomials, tolerance ≤ t.2.abs := fun t => tolerance_le_of_mem_sub
    have unchanged := sub_zero kept
    exact ⟨p, q, p.sub q, before hp, before hq, hd, rfl, kept, degree_sub_le p q, unchanged,
      unchanged.symm ▸ same_self fun t => isNaN_of_mem_sub⟩

/-- `10^308 + 10^308 + x`: the constant of the side is infinite. -/
def overflowing : List Char :=
  let huge := '1' :: List.replicate 308 '0'
  huge ++ '+' :: huge ++ ['+', 'x']

theorem history?_invariant_overflowing :
    ∃ p : Polynomial, (p.coeff 0).isFinite = false ∧
      history? [.read overflowing, .sub 0 0] = some [p, p.sub p] ∧
      (∀ t ∈ p.monomials, t.2.isNaN = false) ∧ p.sub p = zero ∧
      (∀ t ∈ (p.sub p).monomials, tolerance ≤ t.2.abs) ∧ (p.sub p).degree ≤ p.degree := by
  have infinite : (((ofText? overflowing).getD zero).coeff 0).isFinite = false := by decide +kernel
  have made : history? [.read overflowing, .sub 0 0] =
      some [(ofText? overflowing).getD zero,
        ((ofText? overflowing).getD zero).sub ((ofText? overflowing).getD zero)] := rfl
  generalize (ofText? overflowing).getD zero = p at infinite made
  obtain ⟨-, each, differences⟩ := (history?_invariant _).2 _ made
  obtain ⟨numbers, nothing⟩ := each p (List.mem_cons_self ..)
  obtain ⟨q, r, d, hq, hr, hd, -, kept, degree_le, -⟩ := differences 1 0 0 rfl
  cases hq
  cases hr
  cases hd
  exact ⟨p, infinite, made, fun t ht => (numbers t ht).2, nothing, kept,
    degree_le.trans (max_self _).le⟩

end Reckoner.Polynomial
