import Reckoner.Equation.Solver

/-!
# Solving by degree

The cases of `solvePolynomial`: up to degree one the equation is linear, at degree two it is
quadratic, and a greater degree is refused. At degree zero some power of the unknown has to be
stated. Once both sides are read, `solve` comes down to it (`solve_of_sides`,
`solve_eq_error_of_sides`).
-/

namespace Reckoner.Equation

variable {p : Polynomial} {stated : Nat}

theorem solvePolynomial_linear (h : p.degree ≤ 1) (hs : stated ≠ 0) :
    solvePolynomial p stated = .ok ((solveLinear (p.coeff 1) (p.coeff 0)).1,
      (solveLinear (p.coeff 1) (p.coeff 0)).2, none) := by
  have hd : p.degree = 0 ∨ p.degree = 1 := by omega
  unfold solvePolynomial
  obtain hd | hd := hd
  · simp [hd, hs]
  · simp [hd]

theorem solvePolynomial_unstated (h : p.degree = 0) :
    solvePolynomial p 0 = .error (.unsolvable .noUnknown) := by
  unfold solvePolynomial
  simp [h]

theorem solvePolynomial_quadratic (h : p.degree = 2) :
    solvePolynomial p stated =
      .ok ((solveQuadratic (p.coeff 2) (p.coeff 1) (p.coeff 0)).1,
        (solveQuadratic (p.coeff 2) (p.coeff 1) (p.coeff 0)).2,
        some (discriminant (p.coeff 2) (p.coeff 1) (p.coeff 0))) := by
  unfold solvePolynomial
  simp [h]

theorem solvePolynomial_of_three_le (h : 3 ≤ p.degree) :
    solvePolynomial p stated = .error (.unsolvable (.degree p.degree)) := by
  unfold solvePolynomial
  split <;> first | omega | rfl

/-- What is solved is linear or quadratic. -/
theorem eq_of_solvePolynomial_eq_ok {s : Solution × List String × Option Float}
    (h : solvePolynomial p stated = .ok s) :
    (p.degree ≤ 1 ∧ s = ((solveLinear (p.coeff 1) (p.coeff 0)).1,
      (solveLinear (p.coeff 1) (p.coeff 0)).2, none)) ∨
    (p.degree = 2 ∧ s = ((solveQuadratic (p.coeff 2) (p.coeff 1) (p.coeff 0)).1,
      (solveQuadratic (p.coeff 2) (p.coeff 1) (p.coeff 0)).2,
      some (discriminant (p.coeff 2) (p.coeff 1) (p.coeff 0)))) := by
  unfold solvePolynomial at h
  split at h
  · rename_i degree
    split at h
    · cases h
    · exact .inl ⟨by omega, (Except.ok.inj h).symm⟩
  · rename_i degree
    split at h
    · cases h
    · exact .inl ⟨by omega, (Except.ok.inj h).symm⟩
  · rename_i degree
    exact .inr ⟨degree, (Except.ok.inj h).symm⟩
  · cases h

/-- A polynomial is solved or refused as unsolvable. -/
theorem solvePolynomial_cases (p : Polynomial) (stated : Nat) :
    (∃ s, solvePolynomial p stated = .ok s) ∨
      ∃ why, solvePolynomial p stated = .error (.unsolvable why) := by
  unfold solvePolynomial
  split
  · split
    · exact .inr ⟨_, rfl⟩
    · exact .inl ⟨_, rfl⟩
  · split
    · exact .inr ⟨_, rfl⟩
    · exact .inl ⟨_, rfl⟩
  · exact .inl ⟨_, rfl⟩
  · exact .inr ⟨_, rfl⟩

/-! ## From the sides to their difference -/

section Sides

variable {text left right : List Char}

/-- Solving with both sides read. -/
theorem solve_of_sides {l r : Polynomial}
    (hsides : sides? text = some (left, right)) (hl : Polynomial.ofText? left = some l)
    (hr : Polynomial.ofText? right = some r) {s : Solution × List String × Option Float}
    (hs : solvePolynomial (l.sub r) (max l.degree r.degree) = .ok s) :
    solve text = .ok {
      solution := s.1
      standardForm := (l.sub r).standardForm
      discriminant := s.2.2
      steps :=
        ["Équation : " ++ String.ofList left ++ " = " ++ String.ofList right,
          "Forme standard : " ++ (l.sub r).standardForm] ++
        s.2.1 ++ ["Réponse : " ++ s.1.answer] } := by
  simp only [solve, hsides, readSide, hl, hr, bind, Except.bind, hs]
  rfl

theorem solve_eq_ok_of_sides {l r : Polynomial}
    (hsides : sides? text = some (left, right)) (hl : Polynomial.ofText? left = some l)
    (hr : Polynomial.ofText? right = some r) {s : Solution × List String × Option Float}
    (hs : solvePolynomial (l.sub r) (max l.degree r.degree) = .ok s) :
    ∃ resolution, solve text = .ok resolution ∧ resolution.solution = s.1 ∧
      resolution.discriminant = s.2.2 ∧ resolution.standardForm = (l.sub r).standardForm :=
  ⟨_, solve_of_sides hsides hl hr hs, rfl, rfl, rfl⟩

theorem solve_eq_error_of_sides {l r : Polynomial}
    (hsides : sides? text = some (left, right)) (hl : Polynomial.ofText? left = some l)
    (hr : Polynomial.ofText? right = some r) {e : Fault}
    (he : solvePolynomial (l.sub r) (max l.degree r.degree) = .error e) :
    solve text = .error e := by
  simp only [solve, hsides, readSide, hl, hr, bind, Except.bind, he]

/-- A side that states no polynomial cannot be solved. -/
theorem exists_solve_eq_error (hsides : sides? text = some (left, right))
    (h : Polynomial.ofText? left = none ∨ Polynomial.ofText? right = none) :
    ∃ why, solve text = .error (.unsolvable why) := by
  simp only [solve, hsides, readSide]
  cases hl : Polynomial.ofText? left with
  | none => exact ⟨_, rfl⟩
  | some l =>
    have hr := h.resolve_left (by simp [hl])
    rw [hr]
    exact ⟨_, rfl⟩

/-- An equation is solved only if both sides are read. -/
theorem exists_sides_of_solve_eq_ok {resolution : Resolution} (h : solve text = .ok resolution) :
    ∃ left right l r s, sides? text = some (left, right) ∧ Polynomial.ofText? left = some l ∧
      Polynomial.ofText? right = some r ∧
      solvePolynomial (l.sub r) (max l.degree r.degree) = .ok s ∧ resolution.solution = s.1 ∧
      resolution.discriminant = s.2.2 := by
  obtain hsides | ⟨⟨left, right⟩, hsides⟩ := Option.eq_none_or_eq_some (sides? text)
  · simp only [solve, hsides] at h
    cases h
  obtain hl | ⟨l, hl⟩ := Option.eq_none_or_eq_some (Polynomial.ofText? left)
  · obtain ⟨why, refused⟩ := exists_solve_eq_error hsides (.inl hl)
    rw [refused] at h
    cases h
  obtain hr | ⟨r, hr⟩ := Option.eq_none_or_eq_some (Polynomial.ofText? right)
  · obtain ⟨why, refused⟩ := exists_solve_eq_error hsides (.inr hr)
    rw [refused] at h
    cases h
  obtain ⟨s, hs⟩ | ⟨why, hs⟩ := solvePolynomial_cases (l.sub r) (max l.degree r.degree)
  · obtain ⟨solved, hok, hsolution, hdiscriminant, -⟩ := solve_eq_ok_of_sides hsides hl hr hs
    rw [h] at hok
    cases hok
    exact ⟨left, right, l, r, s, hsides, hl, hr, hs, hsolution, hdiscriminant⟩
  · rw [solve_eq_error_of_sides hsides hl hr hs] at h
    cases h

end Sides

end Reckoner.Equation
