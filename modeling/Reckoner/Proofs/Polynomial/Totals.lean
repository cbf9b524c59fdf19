import Mathlib.Data.List.Nodup
import Reckoner.Proofs.Polynomial.Degree

/-!
# Totals of terms

The polynomial of some terms has their powers, each with the sum of its coefficients from left to
right (`IsTotal`). Adding the terms one by one gives it (`isTotal_addTerms`), and it is the only
one (`IsTotal.unique`).
-/

namespace Reckoner.Polynomial

/-- The coefficients that terms have for a power, in order. -/
def coefficients (ts : List (ℕ × Float)) (k : ℕ) : List Float :=
  (ts.filter (·.1 = k)).map Prod.snd

/-- The powers of the polynomial are those of the terms, and its coefficients are sums from left to
right that start at zero. -/
structure IsTotal (p : Polynomial) (ts : List (ℕ × Float)) : Prop where
  present_iff (k : ℕ) : (∃ c, (k, c) ∈ p.monomials) ↔ ∃ c, (k, c) ∈ ts
  coeff_eq (k : ℕ) : p.coeff k = (coefficients ts k).foldl (· + ·) 0

theorem coeff_eq_getD (p : Polynomial) (k : Fin (maxPower + 1)) :
    p.coeff k = (p.terms.get k).getD 0 := by
  rw [coeff, Vector.getElem?_eq_getElem k.isLt]
  rfl

theorem coeff_of_lt {p : Polynomial} {k : ℕ} (h : maxPower < k) : p.coeff k = 0 := by
  rw [coeff, Vector.getElem?_eq_none (by omega)]
  rfl

theorem exists_mem_monomials_iff {p : Polynomial} {k : Fin (maxPower + 1)} :
    (∃ c, (k.val, c) ∈ p.monomials) ↔ p.terms.get k ≠ none := by
  rw [Option.ne_none_iff_exists']
  exact exists_congr fun c => val_mem_monomials

theorem coefficients_eq_nil_iff {ts : List (ℕ × Float)} {k : ℕ} :
    coefficients ts k = [] ↔ ¬∃ c, (k, c) ∈ ts := by
  simp only [coefficients, List.map_eq_nil_iff, List.filter_eq_nil_iff, decide_eq_true_eq,
    Prod.forall, not_exists]
  exact ⟨fun h c hc => h k c hc rfl, fun h j c hc hj => h c (hj ▸ hc)⟩

theorem coefficients_cons (t : ℕ × Float) (ts : List (ℕ × Float)) (k : ℕ) :
    coefficients (t :: ts) k = if t.1 = k then t.2 :: coefficients ts k else coefficients ts k := by
  unfold coefficients
  rw [List.filter_cons]
  by_cases h : t.1 = k <;> simp [h]

/-- Terms of different powers have at most one coefficient for each. -/
theorem coefficients_of_nodup {ts : List (ℕ × Float)} (once : (ts.map Prod.fst).Nodup) (k : ℕ) :
    coefficients ts k = [] ∨ ∃ c, coefficients ts k = [c] := by
  induction ts with
  | nil => exact .inl rfl
  | cons t ts ih =>
    obtain ⟨fresh, once⟩ := List.nodup_cons.1 once
    rw [coefficients_cons]
    by_cases hk : t.1 = k
    · have none_left : coefficients ts k = [] := coefficients_eq_nil_iff.2 fun ⟨c, hc⟩ =>
        fresh (List.mem_map.2 ⟨_, hc, hk.symm⟩)
      rw [if_pos hk, none_left]
      exact .inr ⟨_, rfl⟩
    · rw [if_neg hk]
      exact ih once

/-- The total of terms at a power. -/
def totalAt (ts : List (ℕ × Float)) (k : ℕ) : Option Float :=
  if coefficients ts k = [] then none else some ((coefficients ts k).foldl (· + ·) 0)

theorem totalAt_getD (ts : List (ℕ × Float)) (k : ℕ) :
    (totalAt ts k).getD 0 = (coefficients ts k).foldl (· + ·) 0 := by
  unfold totalAt
  split
  · rename_i h
    rw [h]
    rfl
  · rfl

theorem totalAt_ne_none_iff {ts : List (ℕ × Float)} {k : ℕ} :
    totalAt ts k ≠ none ↔ ∃ c, (k, c) ∈ ts := by
  rw [totalAt, ← not_not (a := ∃ c, (k, c) ∈ ts), ← coefficients_eq_nil_iff]
  split <;> simp_all

/-- The total said power by power. -/
theorem isTotal_iff {p : Polynomial} {ts : List (ℕ × Float)} (low : ∀ t ∈ ts, t.1 ≤ maxPower) :
    p.IsTotal ts ↔ ∀ k : Fin (maxPower + 1), p.terms.get k = totalAt ts k := by
  constructor
  · rintro ⟨present, coeff⟩ k
    have present := (exists_mem_monomials_iff.symm.trans (present k)).trans totalAt_ne_none_iff.symm
    have coeff := (p.coeff_eq_getD k).symm.trans ((coeff k).trans (totalAt_getD ts k).symm)
    generalize p.terms.get k = x at present coeff
    generalize totalAt ts k = y at present coeff
    cases x <;> cases y <;> simp_all
  · intro h
    have high {k : ℕ} (hk : ¬k < maxPower + 1) : ¬∃ c, (k, c) ∈ ts := by
      rintro ⟨c, hc⟩
      exact hk (Nat.lt_succ_of_le (low _ hc))
    constructor
    · intro k
      by_cases hk : k < maxPower + 1
      · have := exists_mem_monomials_iff (p := p) (k := ⟨k, hk⟩)
        rw [h] at this
        exact this.trans totalAt_ne_none_iff
      · refine ⟨?_, fun hc => absurd hc (high hk)⟩
        rintro ⟨c, hc⟩
        obtain ⟨j, rfl, -⟩ := mem_monomials.1 hc
        exact absurd j.isLt hk
    · intro k
      by_cases hk : k < maxPower + 1
      · have := p.coeff_eq_getD ⟨k, hk⟩
        rw [h] at this
        exact this.trans (totalAt_getD ts k)
      · rw [coeff_of_lt (by omega), coefficients_eq_nil_iff.2 (high hk)]
        rfl

/-- Polynomials are equal if they are at every power. -/
theorem ext_get {p q : Polynomial} (h : ∀ k, p.terms.get k = q.terms.get k) : p = q := by
  cases p
  cases q
  exact congrArg _ (Vector.ext fun k hk => h ⟨k, hk⟩)

theorem IsTotal.unique {p q : Polynomial} {ts : List (ℕ × Float)} (hp : p.IsTotal ts)
    (hq : q.IsTotal ts) (low : ∀ t ∈ ts, t.1 ≤ maxPower) : p = q :=
  ext_get fun k => ((isTotal_iff low).1 hp k).trans ((isTotal_iff low).1 hq k).symm

/-! ## Monomials -/

/-- The monomials of a polynomial have one coefficient for each of its powers. -/
theorem coefficients_monomials (p : Polynomial) (k : Fin (maxPower + 1)) :
    coefficients p.monomials k = (p.terms.get k).toList := by
  have once : (p.monomials.map Prod.fst).Nodup :=
    List.pairwise_map.2 (p.pairwise_monomials.imp Nat.ne_of_gt)
  have mem_iff (c : Float) : c ∈ coefficients p.monomials k ↔ p.terms.get k = some c := by
    have present : c ∈ coefficients p.monomials k ↔ (k.val, c) ∈ p.monomials := by
      simp [coefficients]
    exact present.trans val_mem_monomials
  obtain hnil | ⟨c, hc⟩ := coefficients_of_nodup once k
  · rw [hnil]
    cases h : p.terms.get k with
    | none => rfl
    | some c => simpa [hnil] using (mem_iff c).2 h
  · rw [hc, (mem_iff c).1 (by simp [hc])]
    rfl

/-- **A polynomial is the total of its monomials**, unless a coefficient is lost when it is added to
zero. -/
theorem isTotal_monomials {p : Polynomial} (kept : ∀ t ∈ p.monomials, 0 + t.2 = t.2) :
    p.IsTotal p.monomials := by
  refine (isTotal_iff fun t ht => le_maxPower_of_mem ht).2 fun k => ?_
  rw [totalAt, coefficients_monomials]
  cases h : p.terms.get k with
  | none => rfl
  | some c =>
    have sum : 0 + c = c := kept (k, c) (val_mem_monomials.2 h)
    simp [sum]

/-! ## Adding terms one by one -/

/-- Add terms to a polynomial, from left to right. -/
def addTerms (p : Polynomial) (ts : List (Fin (maxPower + 1) × Float)) : Polynomial :=
  ts.foldl (fun p t => p.addTerm t.1 t.2) p

/-- Terms with their powers as numbers. -/
def plainTerms (ts : List (Fin (maxPower + 1) × Float)) : List (ℕ × Float) :=
  ts.map fun t => (t.1.val, t.2)

theorem get_addTerm (p : Polynomial) (k j : Fin (maxPower + 1)) (c : Float) :
    (p.addTerm k c).terms.get j =
      if j = k then some ((p.terms.get k).getD 0 + c) else p.terms.get j := by
  have get_eq (v : Vector (Option Float) (maxPower + 1)) : v.get j = v[j.val] := rfl
  simp only [addTerm, get_eq, Vector.getElem_set, Fin.ext_iff, eq_comm]
  rfl

theorem get_addTerms (p : Polynomial) (ts : List (Fin (maxPower + 1) × Float))
    (k : Fin (maxPower + 1)) :
    (p.addTerms ts).terms.get k =
      if coefficients (plainTerms ts) k = [] then p.terms.get k
      else some ((coefficients (plainTerms ts) k).foldl (· + ·) ((p.terms.get k).getD 0)) := by
  induction ts generalizing p with
  | nil => rfl
  | cons t ts ih =>
    have step : p.addTerms (t :: ts) = (p.addTerm t.1 t.2).addTerms ts := rfl
    have plain : plainTerms (t :: ts) = (t.1.val, t.2) :: plainTerms ts := rfl
    rw [step, ih, get_addTerm, plain, coefficients_cons]
    by_cases hk : t.1 = k
    · subst hk
      simp only [reduceIte, Option.getD_some, reduceCtorEq, List.foldl_cons]
      split
      · rename_i h
        rw [h]
        rfl
      · rfl
    · have hk' : t.1.val ≠ k.val := fun h => hk (Fin.ext h)
      rw [if_neg (Ne.symm hk), if_neg hk']

theorem plainTerms_le {ts : List (Fin (maxPower + 1) × Float)} :
    ∀ t ∈ plainTerms ts, t.1 ≤ maxPower := by
  intro t ht
  obtain ⟨u, -, rfl⟩ := List.mem_map.1 ht
  exact Nat.le_of_lt_succ u.1.isLt

theorem plainTerms_injective {ts us : List (Fin (maxPower + 1) × Float)}
    (h : plainTerms ts = plainTerms us) : ts = us :=
  List.map_injective_iff.2 (fun _ _ h => Prod.ext (Fin.ext (congrArg Prod.fst h)) (Prod.mk.inj h).2)
    h

/-- Terms added to the polynomial without terms. -/
theorem isTotal_addTerms (ts : List (Fin (maxPower + 1) × Float)) :
    (zero.addTerms ts).IsTotal (plainTerms ts) := by
  refine (isTotal_iff plainTerms_le).2 fun k => ?_
  have hzero : zero.terms.get k = none := Vector.getElem_replicate k.isLt
  rw [get_addTerms, hzero, totalAt]
  rfl

end Reckoner.Polynomial
