import Reckoner.Proofs.Equation.Degrees
import Reckoner.Proofs.Polynomial.Difference
import Reckoner.Proofs.Polynomial.Flip

/-!
# Moving terms to the other side

An equation says the same with the terms of its right side moved to the left, each with its sign
flipped, and zero left on the right. One of the two takes the difference of polynomials and the
other adds the opposite terms; as long as the right side has at most one term for a power, both come
to one operation on the same two numbers (`sub_eq_addTerms_sub`). The powers that are stated are the
same as well (`degree_addTerms_opposites`), so the two equations are solved alike
(`solve_transpose`).
-/

namespace Reckoner

open Double Equation

namespace Polynomial

/-! ## Coefficients -/

theorem plainTerms_opposites (ts : List (Fin (maxPower + 1) × Float)) :
    plainTerms (opposites ts) = opposites (plainTerms ts) := by
  simp only [plainTerms, opposites, List.map_map]
  rfl

theorem coefficients_opposites (ts : List (ℕ × Float)) (k : ℕ) :
    coefficients (opposites ts) k = (coefficients ts k).map (-·) := by
  induction ts with
  | nil => rfl
  | cons t ts ih =>
    have head : opposites (t :: ts) = (t.1, -t.2) :: opposites ts := rfl
    rw [head, coefficients_cons, coefficients_cons, ih]
    split <;> rfl

/-- A zero that is taken away leaves the difference what it is. -/
theorem subCoeff_of_isZero {z : Float} (hz : IsZero z) (a : Option Float) :
    subCoeff a (some z) = subCoeff a none := by
  have zeros : Alike (-z) 0 := .inr ⟨hz.neg, isZero_zero⟩
  have same (x : Float) : Alike (x - z) x := by
    rw [sub_eq_add]
    exact ((Alike.refl x).add zeros).trans (add_zero_alike x)
  cases a with
  | none => exact (keep_of_alike (same 0)).trans (keep_of_isZero isZero_zero)
  | some x => exact keep_of_alike (same x)

/-! ## Polynomials -/

/-- The polynomial of the text `0`. -/
theorem get_addTerms_zero (k : Fin (maxPower + 1)) :
    (zero.addTerms [(0, 0)]).terms.get k = if k = 0 then some (0 + 0) else none := by
  have absent (j : Fin (maxPower + 1)) : zero.terms.get j = none := Vector.getElem_replicate j.isLt
  rw [addTerms, List.foldl_cons, List.foldl_nil, get_addTerm, absent, absent]
  rfl

theorem degree_addTerms_zero : (zero.addTerms [(0, 0)]).degree = 0 := by
  refine Nat.le_zero.1 (degree_le_iff.2 fun k hk => ?_)
  rw [get_addTerms_zero] at hk
  by_cases h : k = 0
  · exact (congrArg Fin.val h).le
  · exact absurd (if_neg h) hk

/-- What is present after terms were added. -/
theorem get_addTerms_ne_none {p : Polynomial} {ts : List (Fin (maxPower + 1) × Float)}
    {k : Fin (maxPower + 1)} :
    (p.addTerms ts).terms.get k ≠ none ↔
      p.terms.get k ≠ none ∨ coefficients (plainTerms ts) k ≠ [] := by
  rw [get_addTerms]
  split
  · rename_i h
    simp [h]
  · rename_i h
    simp [h]

/-- **Opposite terms state the powers that their terms state.** -/
theorem degree_addTerms_opposites (p : Polynomial) (ts : List (Fin (maxPower + 1) × Float)) :
    (p.addTerms (opposites ts)).degree = max p.degree (zero.addTerms ts).degree := by
  have absent (j : Fin (maxPower + 1)) : zero.terms.get j = none := Vector.getElem_replicate j.isLt
  refine eq_of_forall_ge_iff fun n => ?_
  simp only [max_le_iff, degree_le_iff, get_addTerms_ne_none, plainTerms_opposites,
    coefficients_opposites, absent, ne_eq, List.map_eq_nil_iff, not_true_eq_false, false_or]
  exact ⟨fun h => ⟨fun k hk => h k (.inl hk), fun k hk => h k (.inr hk)⟩,
    fun h k hk => hk.elim (h.1 k) (h.2 k)⟩

/-- **Taking terms away is adding the opposite terms**, if no power comes up twice. -/
theorem sub_eq_addTerms_sub (p : Polynomial) {ts : List (Fin (maxPower + 1) × Float)}
    (once : ((plainTerms ts).map Prod.fst).Nodup) :
    p.sub (zero.addTerms ts) = (p.addTerms (opposites ts)).sub (zero.addTerms [(0, 0)]) := by
  have sum_zero : IsZero (0 + 0) := by
    have h : ((0 : Float) + 0 == 0) = true := by decide +kernel
    exact beq_zero_iff.1 h
  refine ext_get fun k => ?_
  have absent : zero.terms.get k = none := Vector.getElem_replicate k.isLt
  have zero_right (a : Option Float) :
      subCoeff a ((zero.addTerms [(0, 0)]).terms.get k) = subCoeff a none := by
    rw [get_addTerms_zero]
    split
    · exact subCoeff_of_isZero sum_zero a
    · rfl
  rw [get_sub, get_sub, zero_right, get_addTerms, get_addTerms, plainTerms_opposites,
    coefficients_opposites, absent]
  obtain h | ⟨c, h⟩ := coefficients_of_nodup once k
  · rw [h]
    rfl
  · rw [h]
    generalize p.terms.get k = a
    -- one side takes away what was added to zero, the other adds the opposite
    have difference : Alike (a.getD 0 - (0 + c)) (a.getD 0 + -c) := by
      rw [← sub_eq_add, add_swap]
      exact (Alike.refl _).sub (add_zero_alike c)
    have step : subCoeff a (some (0 + c)) = subCoeff.keep (a.getD 0 - (0 + c)) := by
      cases a <;> rfl
    exact step.trans (keep_of_alike difference)

end Polynomial

/-! ## Equations -/

/-- An equal sign stands in no text that states terms. -/
theorem States.equals_not_mem {text : List Char} {ts : List (ℕ × Float)} (h : States text ts) :
    '=' ∉ text := by
  intro hmem
  have visible : '=' ∈ text.filter (!Unicode.isBlank ·) := List.mem_filter.2 ⟨hmem, by decide⟩
  exact h.isSum.not_mem (by decide) (by decide) (by decide) rfl
    (mem_dropStars (by decide) visible)

theorem States.equals_not_mem_flipSigns {text : List Char} {ts : List (ℕ × Float)}
    (h : States text ts) : '=' ∉ flipSigns text := fun hmem =>
  h.equals_not_mem (List.mem_filter.1 ((mem_flipSigns_iff rfl).1 hmem)).1

/-- The text `0` states the constant zero. -/
theorem ofText?_zero : Polynomial.ofText? ['0'] = some (Polynomial.zero.addTerms [(0, 0)]) := rfl

/-- Behind a side the other one is read with the opposite terms. -/
theorem ofText?_append_flipSigns {left right : List Char}
    {ts us : List (Fin (maxPower + 1) × Float)} (hl : States left (Polynomial.plainTerms ts))
    (hr : States right (Polynomial.plainTerms us)) :
    Polynomial.ofText? (left ++ flipSigns right) =
      some ((Polynomial.zero.addTerms ts).addTerms (opposites us)) := by
  refine ofText?_eq_some_iff.2 ⟨ts ++ opposites us, ?_, List.foldl_append.symm⟩
  have both := hl.append_flipSigns hr
  rwa [← Polynomial.plainTerms_opposites, Polynomial.plainTerms, Polynomial.plainTerms,
    ← List.map_append] at both

/-- **Moving the terms of a side across the equal sign does not change the answer**: the solution,
the discriminant and the standard form are the same, or the same is said against both equations. -/
theorem solve_transpose {left right : List Char} {ts : List (ℕ × Float)}
    (hl : ∃ p, Polynomial.ofText? left = some p) (hr : States right ts)
    (once : (ts.map Prod.fst).Nodup) :
    (∃ r s, solve (left ++ '=' :: right) = .ok r ∧
      solve (left ++ flipSigns right ++ ['=', '0']) = .ok s ∧ r.solution = s.solution ∧
      r.discriminant = s.discriminant ∧ r.standardForm = s.standardForm) ∨
    ∃ why, solve (left ++ '=' :: right) = .error (.unsolvable why) ∧
      solve (left ++ flipSigns right ++ ['=', '0']) = .error (.unsolvable why) := by
  obtain ⟨p, hp⟩ := hl
  obtain ⟨vs, hvs, rfl⟩ := ofText?_eq_some_iff.1 hp
  obtain ⟨us, rfl⟩ := hr.exists_plainTerms
  have hq : Polynomial.ofText? right = some (Polynomial.zero.addTerms us) :=
    ofText?_eq_some_iff.2 ⟨us, hr, rfl⟩
  have hmoved := ofText?_append_flipSigns hvs hr
  have sides : sides? (left ++ '=' :: right) = some (left, right) :=
    sides?_eq_some_iff.2 ⟨rfl, hvs.equals_not_mem, hr.equals_not_mem⟩
  have sides' : sides? (left ++ flipSigns right ++ ['=', '0']) =
      some (left ++ flipSigns right, ['0']) := by
    refine sides?_eq_some_iff.2 ⟨rfl, ?_, by decide⟩
    rw [List.mem_append, not_or]
    exact ⟨hvs.equals_not_mem, hr.equals_not_mem_flipSigns⟩
  set l := Polynomial.zero.addTerms vs
  set r := Polynomial.zero.addTerms us
  have difference : l.sub r = (l.addTerms (opposites us)).sub (Polynomial.zero.addTerms [(0, 0)]) :=
    l.sub_eq_addTerms_sub once
  have stated : max l.degree r.degree =
      max (l.addTerms (opposites us)).degree (Polynomial.zero.addTerms [(0, 0)]).degree := by
    rw [Polynomial.degree_addTerms_zero, Nat.max_zero, l.degree_addTerms_opposites us]
  obtain ⟨s, hs⟩ | ⟨why, hs⟩ := solvePolynomial_cases (l.sub r) (max l.degree r.degree)
  · have hs' := hs
    rw [difference, stated] at hs'
    obtain ⟨x, hx, hsol, hdisc, hform⟩ := solve_eq_ok_of_sides sides hp hq hs
    obtain ⟨y, hy, hsol', hdisc', hform'⟩ := solve_eq_ok_of_sides sides' hmoved ofText?_zero hs'
    refine .inl ⟨x, y, hx, hy, hsol.trans hsol'.symm, hdisc.trans hdisc'.symm, ?_⟩
    rw [hform, hform', difference]
  · have hs' := hs
    rw [difference, stated] at hs'
    exact .inr ⟨why, solve_eq_error_of_sides sides hp hq hs,
      solve_eq_error_of_sides sides' hmoved ofText?_zero hs'⟩

/-- In `x² - 3 x = 4 - 2 x` the right side is moved. -/
theorem solve_transpose_two_terms :
    ((∃ p, Polynomial.ofText? "x^2 - 3x ".toList = some p) ∧
      States " 4 - 2x".toList [(0, 4), (1, -2)] ∧ ([0, 1] : List ℕ).Nodup) ∧
    ∃ r s, solve "x^2 - 3x = 4 - 2x".toList = .ok r ∧ solve "x^2 - 3x -4+2x=0".toList = .ok s ∧
      r.solution = s.solution ∧ r.discriminant = s.discriminant ∧
      r.standardForm = s.standardForm := by
  have left : ∃ p, Polynomial.ofText? "x^2 - 3x ".toList = some p := ⟨_, rfl⟩
  have sum : IsSum "4-2x".toList [(0, 4), (1, -2)] :=
    (isSum_iff (by decide)).2
      ⟨[(.plus, ['4']), (.minus, ['2', 'x'])], [(0, 4), (1, -2)], rfl, rfl, rfl⟩
  have bare : " 4 - 2x".toList.filter (!Unicode.isBlank ·) = "4-2x".toList := by decide +kernel
  have right : States " 4 - 2x".toList [(0, 4), (1, -2)] := .of_isSum (bare ▸ sum)
  have once : ([0, 1] : List ℕ).Nodup := by decide
  have solved : (solve "x^2 - 3x = 4 - 2x".toList).isOk = true := by decide +kernel
  refine ⟨⟨left, right, once⟩, (solve_transpose left right once).resolve_right ?_⟩
  rintro ⟨why, refused, -⟩
  have text : "x^2 - 3x ".toList ++ '=' :: " 4 - 2x".toList = "x^2 - 3x = 4 - 2x".toList := rfl
  rw [← text, refused] at solved
  cases solved

end Reckoner
