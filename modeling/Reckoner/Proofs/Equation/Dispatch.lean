import Reckoner.Proofs.Equation.Transposition

/-!
# The class of an equation

The degree of the difference of its sides decides how an equation is solved, and at degree zero it
also matters whether the unknown was stated at all (`Dispatches`). The solver takes an unknown as
stated if some term has a power other than zero (`HasPower`). That is whether the letter occurs,
except where it only occurs with the power zero: such an equation is refused as one without an
unknown (`dispatches_solve`).
-/

namespace Reckoner

open Double Equation Reckoner.Polynomial

/-- How an equation comes out whose sides differ by `p`; `unknown` says whether the unknown was
stated. -/
structure Dispatches (p : Polynomial) (unknown : Prop) (result : Except Fault Resolution) :
    Prop where
  refused : 3 ≤ p.degree → result = .error (.unsolvable (.degree p.degree))
  quadratic : p.degree = 2 → ∃ r, result = .ok r ∧ r.discriminant ≠ none ∧
    ((∃ x, r.solution = .double x) ∨ (∃ x₁ x₂, r.solution = .reals x₁ x₂) ∨
      ∃ re im, r.solution = .complex re im)
  linear : p.degree = 1 → ∃ r x, result = .ok r ∧ r.discriminant = none ∧ r.solution = .single x
  constant : p.degree = 0 → unknown → ∃ r, result = .ok r ∧ r.discriminant = none ∧
    r.solution = if p.isZero then .everything else .nothing
  noUnknown_iff : result = .error (.unsolvable .noUnknown) ↔ ¬unknown

/-! ## Differences -/

/-- At its degree a difference has a coefficient that reaches the tolerance. -/
theorem tolerance_le_coeff_degree {p q : Polynomial} (h : (p.sub q).degree ≠ 0) :
    tolerance ≤ ((p.sub q).coeff (p.sub q).degree).abs := by
  obtain ⟨k, hk, hne⟩ := exists_get_degree h
  obtain ⟨c, hc⟩ := Option.ne_none_iff_exists'.1 hne
  rw [← hk, coeff_eq_getD, hc]
  rw [get_sub] at hc
  exact le_abs_of_subCoeff hc

theorem isNegligible_of_le {x : Float} (h : tolerance ≤ x.abs) : isNegligible x = false :=
  decide_eq_false (not_lt_of_le h)

theorem isNegligible_zero : isNegligible 0 = true := by decide +kernel

theorem coeff_eq_zero_of_degree_lt {p : Polynomial} {k : ℕ} (h : p.degree < k) : p.coeff k = 0 := by
  by_cases hk : k < maxPower + 1
  · have absent : p.terms.get ⟨k, hk⟩ = none := by
      by_contra hne
      exact absurd (le_degree hne) (not_le.2 h)
    have coeff := p.coeff_eq_getD ⟨k, hk⟩
    rwa [absent] at coeff
  · exact coeff_of_lt (by omega)

/-- Without a power a difference is its constant, which counts as zero only if it is absent. -/
theorem isNegligible_coeff_zero {p q : Polynomial} (h : (p.sub q).degree = 0) :
    isNegligible ((p.sub q).coeff 0) = (p.sub q).isZero := by
  have coeff := (p.sub q).coeff_eq_getD 0
  cases hc : (p.sub q).terms.get 0 with
  | none =>
    have absent (k : ℕ) (c : Float) : (k, c) ∉ (p.sub q).monomials := by
      intro hmem
      obtain ⟨j, -, hj⟩ := mem_monomials.1 hmem
      have low : j.val = 0 := by
        have := le_degree (p := p.sub q) (k := j) (by simp [hj])
        omega
      rw [Fin.ext low (b := 0), hc] at hj
      cases hj
    have empty : (p.sub q).monomials = [] := List.eq_nil_iff_forall_not_mem.2 fun t => absent t.1 t.2
    rw [hc] at coeff
    rw [isZero, empty]
    exact (congrArg isNegligible coeff).trans isNegligible_zero
  | some c =>
    have present : (0, c) ∈ (p.sub q).monomials := mem_monomials.2 ⟨0, rfl, hc⟩
    have nonempty : (p.sub q).isZero = false := by
      rw [isZero, List.isEmpty_eq_false_iff]
      exact List.ne_nil_of_mem present
    rw [hc] at coeff
    rw [nonempty]
    rw [get_sub] at hc
    exact (congrArg isNegligible coeff).trans (isNegligible_of_le (le_abs_of_subCoeff hc))

/-! ## The unknown -/

/-- A side states a term with a power other than zero. -/
def HasPower (text : List Char) : Prop := ∃ ts, States text ts ∧ ∃ t ∈ ts, t.1 ≠ 0

/-- The degree of a side tells whether it states such a term. -/
theorem degree_ne_zero_iff_hasPower {text : List Char} {p : Polynomial}
    (h : ofText? text = some p) : p.degree ≠ 0 ↔ HasPower text := by
  obtain ⟨vs, states, rfl⟩ := ofText?_eq_some_iff.1 h
  have total := isTotal_addTerms vs
  constructor
  · intro hd
    obtain ⟨k, hk, hne⟩ := exists_get_degree hd
    obtain ⟨c, hc⟩ := (total.present_iff k).1 (exists_mem_monomials_iff.2 hne)
    exact ⟨_, states, _, hc, fun h => hd (hk.symm.trans h)⟩
  · rintro ⟨ts, states', ⟨k, c⟩, hmem, hk⟩ hd
    obtain ⟨us, rfl⟩ := states'.exists_plainTerms
    have same : zero.addTerms vs = zero.addTerms us := by
      have h' := ofText?_eq_some_iff.2 ⟨us, states', rfl⟩
      exact Option.some.inj (h.symm.trans h')
    obtain ⟨d, hd'⟩ := ((isTotal_addTerms us).present_iff k).2 ⟨c, hmem⟩
    obtain ⟨j, rfl, hj⟩ := mem_monomials.1 hd'
    have le := le_degree (p := zero.addTerms us) (k := j) (by simp [hj])
    rw [← same, hd] at le
    exact hk (Nat.le_zero.1 le)

/-- A term with a power has the letter in it. -/
theorem IsTerm.mem_of_power_ne_zero {text : List Char} {k : ℕ} {c : Float} (h : IsTerm text k c)
    (hk : k ≠ 0) : 'x' ∈ text := by
  cases h with
  | constant => exact absurd rfl hk
  | unknown => exact List.mem_append_right _ List.mem_cons_self

theorem AreTerms.mem_of_power_ne_zero {text : List Char} {ts : List (ℕ × Float)}
    (h : AreTerms text ts) {t : ℕ × Float} (ht : t ∈ ts) (hk : t.1 ≠ 0) : 'x' ∈ text := by
  induction h with
  | nil => cases ht
  | cons sign term _ ih =>
    refine List.mem_cons_of_mem _ (List.mem_append.2 ?_)
    obtain rfl | ht := List.mem_cons.1 ht
    · exact .inl (term.mem_of_power_ne_zero hk)
    · exact .inr (ih ht)

theorem IsSum.mem_of_power_ne_zero {text : List Char} {ts : List (ℕ × Float)}
    (h : IsSum text ts) {t : ℕ × Float} (ht : t ∈ ts) (hk : t.1 ≠ 0) : 'x' ∈ text := by
  cases h with
  | signed terms _ => exact terms.mem_of_power_ne_zero ht hk
  | unsigned term more =>
    refine List.mem_append.2 ?_
    obtain rfl | ht := List.mem_cons.1 ht
    · exact .inl (term.mem_of_power_ne_zero hk)
    · exact .inr (more.mem_of_power_ne_zero ht hk)

/-- Nothing comes in where stars are dropped. -/
theorem mem_of_mem_dropStars {cs : List Char} {d : Char} (h : d ∈ dropStars cs) : d ∈ cs := by
  fun_induction dropStars cs with
  | case1 rest ih =>
    refine List.mem_cons_of_mem _ ?_
    exact List.mem_cons.2 ((List.mem_cons.1 h).imp_right ih)
  | case2 c rest _ ih => exact List.mem_cons.2 ((List.mem_cons.1 h).imp_right ih)
  | case3 => exact h

/-- **A stated power is a stated unknown.** -/
theorem HasPower.mem {text : List Char} (h : HasPower text) : 'x' ∈ text := by
  obtain ⟨ts, states, t, ht, hk⟩ := h
  exact (List.mem_filter.1 (mem_of_mem_dropStars (states.isSum.mem_of_power_ne_zero ht hk))).1

/-! ## Equations -/

theorem solveLinear_of_not_negligible {a b : Float} (h : isNegligible a = false) :
    (solveLinear a b).1 = .single (-b / a) := by
  rw [solveLinear, h]
  rfl

theorem solveLinear_of_negligible {a b : Float} (h : isNegligible a = true) :
    (solveLinear a b).1 = if isNegligible b then .everything else .nothing := by
  rw [solveLinear, h]
  cases isNegligible b <;> rfl

/-- A quadratic equation has one of three kinds of solutions. -/
theorem roots_cases (a b delta : Float) :
    (∃ x, (roots a b delta).1 = .double x) ∨ (∃ x₁ x₂, (roots a b delta).1 = .reals x₁ x₂) ∨
      ∃ re im, (roots a b delta).1 = .complex re im := by
  unfold roots
  dsimp only
  split_ifs
  · exact .inl ⟨_, rfl⟩
  · exact .inr (.inl ⟨_, _, rfl⟩)
  · exact .inr (.inr ⟨_, _, rfl⟩)

/-- The difference of two sides is dispatched by its degree; the unknown was stated if one of the
sides has a degree other than zero. -/
theorem dispatches_of_sides {text left right : List Char} {l r : Polynomial}
    (hsides : sides? text = some (left, right)) (hl : ofText? left = some l)
    (hr : ofText? right = some r) :
    Dispatches (l.sub r) (max l.degree r.degree ≠ 0) (solve text) := by
  have ok {s : Solution × List String × Option Float}
      (hs : solvePolynomial (l.sub r) (max l.degree r.degree) = .ok s) :=
    solve_eq_ok_of_sides hsides hl hr hs
  have stated (h : (l.sub r).degree ≠ 0) : max l.degree r.degree ≠ 0 := by
    have := degree_sub_le l r
    omega
  have answered {resolution : Resolution} (h : solve text = .ok resolution) :
      solve text ≠ .error (.unsolvable .noUnknown) := by
    rw [h]
    exact nofun
  have cases : (l.sub r).degree = 0 ∨ (l.sub r).degree = 1 ∨ (l.sub r).degree = 2 ∨
      3 ≤ (l.sub r).degree := by omega
  refine ⟨fun h => ?_, fun h => ?_, fun h => ?_, fun h unknown => ?_, ?_, fun unknown => ?_⟩
  · exact solve_eq_error_of_sides hsides hl hr (solvePolynomial_of_three_le h)
  · obtain ⟨resolution, hok, hsolution, hdiscriminant, -⟩ := ok (solvePolynomial_quadratic h)
    refine ⟨resolution, hok, by simp [hdiscriminant], ?_⟩
    rw [hsolution]
    exact roots_cases _ _ _
  · obtain ⟨resolution, hok, hsolution, hdiscriminant, -⟩ :=
      ok (solvePolynomial_linear h.le (stated (by omega)))
    have leading := isNegligible_of_le (@tolerance_le_coeff_degree l r (by omega))
    rw [h] at leading
    exact ⟨resolution, _, hok, hdiscriminant,
      hsolution.trans (solveLinear_of_not_negligible leading)⟩
  · obtain ⟨resolution, hok, hsolution, hdiscriminant, -⟩ :=
      ok (solvePolynomial_linear (h.le.trans zero_le_one) unknown)
    refine ⟨resolution, hok, hdiscriminant, hsolution.trans ?_⟩
    rw [coeff_eq_zero_of_degree_lt (h ▸ zero_lt_one), solveLinear_of_negligible isNegligible_zero,
      isNegligible_coeff_zero h]
  · intro herr unknown
    obtain h | h | h | h := cases
    · obtain ⟨_, hok, -⟩ := ok (solvePolynomial_linear (h.le.trans zero_le_one) unknown)
      exact answered hok herr
    · obtain ⟨_, hok, -⟩ := ok (solvePolynomial_linear h.le unknown)
      exact answered hok herr
    · obtain ⟨_, hok, -⟩ := ok (solvePolynomial_quadratic h)
      exact answered hok herr
    · rw [solve_eq_error_of_sides hsides hl hr (solvePolynomial_of_three_le h)] at herr
      cases herr
  · have zero : max l.degree r.degree = 0 := not_not.1 unknown
    have degree : (l.sub r).degree = 0 := by
      by_contra hne
      exact unknown (stated hne)
    refine solve_eq_error_of_sides hsides hl hr ?_
    rw [zero]
    exact solvePolynomial_unstated degree

/-- **An equation is solved by the degree of its difference**, and refused as one without an unknown
exactly if no side states a power other than zero. So it is dispatched by whether the letter occurs
exactly if the letter does not occur with the power zero alone. -/
theorem dispatches_solve {left right : List Char} {l r : Polynomial}
    (hl : ofText? left = some l) (hr : ofText? right = some r) :
    Dispatches (l.sub r) (HasPower left ∨ HasPower right) (solve (left ++ '=' :: right)) ∧
      (Dispatches (l.sub r) ('x' ∈ left ++ '=' :: right) (solve (left ++ '=' :: right)) ↔
        ('x' ∈ left ++ '=' :: right → HasPower left ∨ HasPower right)) := by
  obtain ⟨ts, hts, -⟩ := ofText?_eq_some_iff.1 hl
  obtain ⟨us, hus, -⟩ := ofText?_eq_some_iff.1 hr
  have sides : sides? (left ++ '=' :: right) = some (left, right) :=
    sides?_eq_some_iff.2 ⟨rfl, hts.equals_not_mem, hus.equals_not_mem⟩
  have stated : (max l.degree r.degree ≠ 0) = (HasPower left ∨ HasPower right) := by
    rw [← degree_ne_zero_iff_hasPower hl, ← degree_ne_zero_iff_hasPower hr]
    refine propext ⟨fun h => ?_, fun h => ?_⟩ <;> omega
  have dispatches := dispatches_of_sides sides hl hr
  rw [stated] at dispatches
  refine ⟨dispatches, fun literal => ?_, fun implies => ?_⟩
  · exact (not_iff_not.1 (literal.noUnknown_iff.symm.trans dispatches.noUnknown_iff)).1
  · have occurs : HasPower left ∨ HasPower right → 'x' ∈ left ++ '=' :: right := by
      rintro (h | h)
      · exact List.mem_append_left _ h.mem
      · exact List.mem_append_right _ (List.mem_cons_of_mem _ h.mem)
    rwa [propext (Iff.intro implies occurs)]

/-- In `0 x = x - x` every power cancels, and the unknown is stated all the same. -/
theorem dispatches_solve_cancelling :
    ∃ l r, ofText? "0x".toList = some l ∧ ofText? "x-x".toList = some r ∧
      Dispatches (l.sub r) ('x' ∈ "0x=x-x".toList) (solve "0x=x-x".toList) := by
  refine ⟨_, _, rfl, rfl, ?_⟩
  have h := @dispatches_solve "0x".toList "x-x".toList _ _ rfl rfl
  refine h.2.2 fun _ => .inl ((degree_ne_zero_iff_hasPower rfl).1 ?_)
  decide +kernel

/-- In `x^0 = 1` the letter occurs, and the equation is refused as one without an unknown. -/
theorem not_dispatches_solve_power_zero :
    ∃ l r, ofText? "x^0".toList = some l ∧ ofText? "1".toList = some r ∧ (l.sub r).degree = 0 ∧
      'x' ∈ "x^0=1".toList ∧ solve "x^0=1".toList = .error (.unsolvable .noUnknown) ∧
      ¬Dispatches (l.sub r) ('x' ∈ "x^0=1".toList) (solve "x^0=1".toList) := by
  have occurs : 'x' ∈ "x^0=1".toList := by decide
  have refused : solve "x^0=1".toList = .error (.unsolvable .noUnknown) := by
    refine solve_eq_error_of_sides rfl rfl rfl ?_
    exact solvePolynomial_unstated (by decide +kernel)
  refine ⟨_, _, rfl, rfl, by decide +kernel, occurs, refused, fun h => ?_⟩
  exact h.noUnknown_iff.1 refused occurs

end Reckoner
