import Reckoner.Proofs.Double.Opposite
import Reckoner.Proofs.Polynomial.Totals

/-!
# Differences of polynomials

A difference leaves out the coefficients that count as zero, so the sign of a zero never shows in it
(`keep_of_alike`). The difference taken the other way round has exactly the opposite coefficients
(`sub_swap`): the same powers, and so the same degree (`degree_opposite`).
-/

namespace Reckoner.Polynomial

open Double

/-! ## Coefficients that count as zero -/

/-- Zeros count as zero. -/
theorem keep_of_isZero {x : Float} (h : IsZero x) : subCoeff.keep x = none := by
  have small : ¬(0 : Float) ≥ tolerance := by decide +kernel
  rw [subCoeff.keep, h.abs_eq, if_neg small]

theorem keep_of_alike {x y : Float} (h : Alike x y) : subCoeff.keep x = subCoeff.keep y := by
  obtain rfl | ⟨hx, hy⟩ := h
  · rfl
  · rw [keep_of_isZero hx, keep_of_isZero hy]

theorem keep_neg (x : Float) : subCoeff.keep (-x) = (subCoeff.keep x).map (-·) := by
  unfold subCoeff.keep
  rw [abs_opposite]
  split <;> rfl

/-! ## The difference taken the other way round -/

/-- The polynomial with the opposite coefficients. -/
def opposite (p : Polynomial) : Polynomial := ⟨p.terms.map (Option.map (-·))⟩

theorem subCoeff_swap (a b : Option Float) : subCoeff b a = (subCoeff a b).map (-·) := by
  match a, b with
  | none, none => rfl
  | some x, none =>
    change subCoeff.keep (0 - x) = (subCoeff.keep x).map (-·)
    rw [keep_of_alike (zero_sub_alike x), keep_neg]
  | none, some y =>
    change subCoeff.keep y = (subCoeff.keep (0 - y)).map (-·)
    rw [keep_of_alike (zero_sub_alike y), ← keep_neg, opposite_opposite]
  | some x, some y =>
    change subCoeff.keep (y - x) = (subCoeff.keep (x - y)).map (-·)
    rw [keep_of_alike (sub_swap_alike x y), keep_neg]

theorem get_opposite (p : Polynomial) (k : Fin (maxPower + 1)) :
    p.opposite.terms.get k = (p.terms.get k).map (-·) := Vector.getElem_map ..

theorem get_sub (p q : Polynomial) (k : Fin (maxPower + 1)) :
    (p.sub q).terms.get k = subCoeff (p.terms.get k) (q.terms.get k) :=
  getElem_terms_sub p q k

/-- **The difference taken the other way round has the opposite coefficients.** -/
theorem sub_swap (p q : Polynomial) : q.sub p = (p.sub q).opposite :=
  ext_get fun k => by rw [get_opposite, get_sub, get_sub, subCoeff_swap]

/-- The degree depends on the powers that are present alone. -/
theorem degree_le_iff {p : Polynomial} {n : ℕ} :
    p.degree ≤ n ↔ ∀ k : Fin (maxPower + 1), p.terms.get k ≠ none → k.val ≤ n := by
  refine ⟨fun h k hk => (le_degree hk).trans h, fun h => ?_⟩
  by_cases hd : p.degree = 0
  · omega
  · obtain ⟨k, hk, hne⟩ := exists_get_degree hd
    exact hk ▸ h k hne

/-- A difference has no power that neither side has. -/
theorem degree_sub_le (p q : Polynomial) : (p.sub q).degree ≤ max p.degree q.degree := by
  refine degree_le_iff.2 fun k hk => ?_
  rw [get_sub] at hk
  by_cases hp : p.terms.get k = none
  · by_cases hq : q.terms.get k = none
    · rw [hp, hq] at hk
      exact absurd rfl hk
    · exact (le_degree hq).trans (le_max_right _ _)
  · exact (le_degree hp).trans (le_max_left _ _)

theorem degree_opposite (p : Polynomial) : p.opposite.degree = p.degree := by
  refine eq_of_forall_ge_iff fun n => ?_
  simp only [degree_le_iff, get_opposite, ne_eq, Option.map_eq_none_iff]

theorem coeff_opposite (p : Polynomial) (k : ℕ) : Alike (p.opposite.coeff k) (-p.coeff k) := by
  have zero_alike : Alike 0 (-0) := .inr ⟨isZero_zero, isZero_zero.neg⟩
  by_cases hk : k < maxPower + 1
  · have get_eq (q : Polynomial) := q.coeff_eq_getD ⟨k, hk⟩
    rw [get_eq, get_eq, get_opposite]
    cases p.terms.get ⟨k, hk⟩ with
    | none => exact zero_alike
    | some c => exact .refl _
  · rw [coeff_of_lt (by omega), coeff_of_lt (by omega)]
    exact zero_alike

/-- A degree other than zero has a coefficient, whose opposite is exact. -/
theorem coeff_opposite_degree {p : Polynomial} (h : p.degree ≠ 0) :
    p.opposite.coeff p.degree = -p.coeff p.degree := by
  obtain ⟨k, hk, hne⟩ := exists_get_degree h
  obtain ⟨c, hc⟩ := Option.ne_none_iff_exists'.1 hne
  rw [← hk, coeff_eq_getD, coeff_eq_getD, get_opposite, hc]
  rfl

end Reckoner.Polynomial
