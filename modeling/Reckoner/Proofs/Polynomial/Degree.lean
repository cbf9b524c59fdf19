import Mathlib.Data.List.Basic
import Reckoner.Polynomial.Basic

/-!
# The degree of a polynomial

The degree is the greatest power that is present (`le_degree`, `exists_get_degree`), and zero if
there is none.
-/

namespace Reckoner.Polynomial

theorem mem_monomials {p : Polynomial} {k : ℕ} {c : Float} :
    (k, c) ∈ p.monomials ↔ ∃ j : Fin (maxPower + 1), j.val = k ∧ p.terms.get j = some c := by
  simp only [monomials, List.mem_filterMap, List.mem_reverse, List.mem_finRange, true_and,
    Option.map_eq_some_iff, Prod.mk.injEq]
  constructor
  · rintro ⟨j, a, hj, rfl, rfl⟩
    exact ⟨j, rfl, hj⟩
  · rintro ⟨j, rfl, hj⟩
    exact ⟨j, c, hj, rfl, rfl⟩

theorem val_mem_monomials {p : Polynomial} {k : Fin (maxPower + 1)} {c : Float} :
    (k.val, c) ∈ p.monomials ↔ p.terms.get k = some c := by
  refine mem_monomials.trans ⟨?_, fun h => ⟨k, rfl, h⟩⟩
  rintro ⟨j, hj, h⟩
  exact Fin.ext hj ▸ h

theorem le_maxPower_of_mem {p : Polynomial} {t : ℕ × Float} (h : t ∈ p.monomials) :
    t.1 ≤ maxPower := by
  obtain ⟨k, hk, -⟩ := mem_monomials.1 h
  exact hk ▸ Nat.le_of_lt_succ k.isLt

/-- The powers go down. -/
theorem pairwise_monomials (p : Polynomial) : p.monomials.Pairwise fun a b => b.1 < a.1 := by
  have sorted : (List.finRange (maxPower + 1)).reverse.Pairwise fun a b => b < a := by decide
  refine sorted.filterMap _ fun i j hij a ha b hb => ?_
  obtain ⟨x, -, rfl⟩ := Option.map_eq_some_iff.1 ha
  obtain ⟨y, -, rfl⟩ := Option.map_eq_some_iff.1 hb
  exact hij

/-- No power above the degree is present. -/
theorem le_degree {p : Polynomial} {k : Fin (maxPower + 1)} (h : p.terms.get k ≠ none) :
    k.val ≤ p.degree := by
  obtain ⟨c, hc⟩ := Option.ne_none_iff_exists'.1 h
  have hmem : (k.val, c) ∈ p.monomials := val_mem_monomials.2 hc
  have sorted := p.pairwise_monomials
  unfold degree
  cases hp : p.monomials with
  | nil => simp [hp] at hmem
  | cons a rest =>
    rw [hp] at hmem sorted
    obtain rfl | hmem := List.mem_cons.1 hmem
    · exact Nat.le_refl _
    · exact Nat.le_of_lt ((List.pairwise_cons.1 sorted).1 _ hmem)

/-- A degree other than zero is present. -/
theorem exists_get_degree {p : Polynomial} (h : p.degree ≠ 0) :
    ∃ k : Fin (maxPower + 1), k.val = p.degree ∧ p.terms.get k ≠ none := by
  unfold degree at h ⊢
  cases hp : p.monomials with
  | nil => simp [hp] at h
  | cons a rest =>
    have hmem : (a.1, a.2) ∈ p.monomials := by simp [hp]
    obtain ⟨k, hk, hc⟩ := mem_monomials.1 hmem
    exact ⟨k, hk, by simp [hc]⟩

end Reckoner.Polynomial
