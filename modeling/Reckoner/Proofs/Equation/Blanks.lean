import Reckoner.Proofs.Equation.Transposition

/-!
# Blanks in equations

The reader leaves blanks out, so an equation has the same solutions with and without them
(`solve_bare`), though its first step shows them. An equation that is solved has no two unknowns in a
row (`not_infix_of_solve_eq_ok`): between two of them there is a sign.
-/

namespace Reckoner

open Reckoner.Polynomial Unicode

namespace Equation

/-- The sides of a text without some characters other than the equal sign. -/
theorem sides?_filter {p : Char → Bool} (hp : p '=' = true) (text : List Char) :
    sides? (text.filter p) = (sides? text).map fun s => (s.1.filter p, s.2.filter p) := by
  obtain hsides | ⟨⟨left, right⟩, hsides⟩ := Option.eq_none_or_eq_some (sides? text)
  · refine hsides ▸ Option.eq_none_iff_forall_ne_some.2 fun ⟨left, right⟩ h => ?_
    obtain ⟨htext, hleft, hright⟩ := sides?_eq_some_iff.1 h
    obtain ⟨before, behind, rfl, rfl, hbehind⟩ := List.filter_eq_append_iff.1 htext
    obtain ⟨skipped, rest, rfl, none_kept, -, rfl⟩ := List.filter_eq_cons_iff.1 hbehind
    have skipped_equals : '=' ∉ skipped := fun hmem => absurd hp (none_kept _ hmem)
    have found : sides? (before ++ (skipped ++ '=' :: rest)) = some (before ++ skipped, rest) := by
      refine sides?_eq_some_iff.2 ⟨by simp, ?_, fun hmem => hright (List.mem_filter.2 ⟨hmem, hp⟩)⟩
      simp only [List.mem_append, skipped_equals, or_false]
      exact fun hmem => hleft (List.mem_filter.2 ⟨hmem, hp⟩)
    rw [hsides] at found
    cases found
  · obtain ⟨rfl, hleft, hright⟩ := sides?_eq_some_iff.1 hsides
    rw [hsides]
    refine sides?_eq_some_iff.2 ⟨?_, fun hmem => hleft (List.mem_filter.1 hmem).1,
      fun hmem => hright (List.mem_filter.1 hmem).1⟩
    rw [List.filter_append, List.filter_cons_of_pos hp]

theorem ofText?_bare (text : List Char) :
    ofText? (text.filter (!isBlank ·)) = ofText? text := by
  simp only [ofText?, List.filter_filter, Bool.and_self]

/-- **Blanks do not matter for the solutions.** -/
theorem solve_bare (text : List Char) :
    (solve (text.filter (!isBlank ·))).toOption.map (·.solution) =
      (solve text).toOption.map (·.solution) := by
  have bare := sides?_filter (p := (!isBlank ·)) (by decide) text
  obtain hsides | ⟨⟨left, right⟩, hsides⟩ := Option.eq_none_or_eq_some (sides? text)
  · rw [hsides] at bare
    simp only [solve, hsides, bare, Option.map_none]
  · rw [hsides, Option.map_some] at bare
    have refused {side : List Char × List Char} {t : List Char} (h : sides? t = some side)
        (hnone : ofText? side.1 = none ∨ ofText? side.2 = none) : (solve t).toOption = none := by
      obtain ⟨why, herr⟩ := exists_solve_eq_error h hnone
      rw [herr]
      rfl
    obtain hl | ⟨l, hl⟩ := Option.eq_none_or_eq_some (ofText? left)
    · rw [refused hsides (.inl hl), refused bare (.inl ((ofText?_bare left).trans hl))]
    obtain hr | ⟨r, hr⟩ := Option.eq_none_or_eq_some (ofText? right)
    · rw [refused hsides (.inr hr), refused bare (.inr ((ofText?_bare right).trans hr))]
    have hl' := (ofText?_bare left).trans hl
    have hr' := (ofText?_bare right).trans hr
    obtain ⟨s, hs⟩ | ⟨why, hs⟩ := solvePolynomial_cases (l.sub r) (max l.degree r.degree)
    · obtain ⟨x, hx, hsolution, -⟩ := solve_eq_ok_of_sides hsides hl hr hs
      obtain ⟨y, hy, hsolution', -⟩ := solve_eq_ok_of_sides bare hl' hr' hs
      rw [hx, hy]
      exact congrArg some (hsolution'.trans hsolution.symm)
    · rw [solve_eq_error_of_sides hsides hl hr hs, solve_eq_error_of_sides bare hl' hr' hs]

end Equation

/-! ## Unknowns in a row -/

/-- Two characters that are not both the unknown. -/
def NotBothUnknown (c d : Char) : Prop := c = 'x' → d ≠ 'x'

theorem isChain_of_not_mem {text : List Char} (h : 'x' ∉ text) : text.IsChain NotBothUnknown := by
  induction text with
  | nil => exact .nil
  | cons c text ih =>
    rw [List.mem_cons, not_or] at h
    exact List.isChain_cons.2 ⟨fun _ _ hc => absurd hc.symm h.1, ih h.2⟩

theorem IsTerm.isChain {text : List Char} {k : ℕ} {x : Float} (h : IsTerm text k x) :
    text.IsChain NotBothUnknown := by
  cases h with
  | constant h _ => exact isChain_of_not_mem (h.not_mem (by decide))
  | unknown coefficient power =>
    have behind : ∀ {behind : List Char} {k : ℕ}, IsPower behind k → 'x' ∉ behind := by
      rintro _ _ (_ | ⟨n, -⟩)
      · simp
      · simp [n.not_mem_digits (c := 'x') rfl]
    have hbehind := behind power
    refine List.isChain_append.2 ⟨isChain_of_not_mem (coefficient.not_mem rfl),
      List.isChain_cons.2 ⟨fun d hd _ hdx => ?_, isChain_of_not_mem hbehind⟩,
      fun c hc _ _ hcx => ?_⟩
    · exact hbehind (hdx ▸ List.mem_of_mem_head? hd)
    · exact absurd (hcx ▸ List.mem_of_getLast? hc) (coefficient.not_mem rfl)

/-- Behind a term and its sign another sign stands. -/
theorem AreTerms.isChain {text : List Char} {ts : List (ℕ × Float)} (h : AreTerms text ts) :
    text.IsChain NotBothUnknown ∧ text.head? ≠ some 'x' := by
  have sign_ne (sign : Sign) : sign.char ≠ 'x' := by cases sign <;> decide
  induction h with
  | nil => exact ⟨.nil, by simp⟩
  | cons sign term _ ih =>
    refine ⟨List.isChain_cons.2 ⟨fun _ _ hsign => absurd hsign (sign_ne sign),
      List.isChain_append.2 ⟨term.isChain, ih.1, fun _ _ d hd _ hdx => ih.2 (hdx ▸ hd)⟩⟩, ?_⟩
    rw [List.head?_cons]
    exact fun h => sign_ne sign (Option.some.inj h)

theorem IsSum.isChain {text : List Char} {ts : List (ℕ × Float)} (h : IsSum text ts) :
    text.IsChain NotBothUnknown := by
  cases h with
  | signed terms _ => exact terms.isChain.1
  | unsigned term more =>
    exact List.isChain_append.2
      ⟨term.isChain, more.isChain.1, fun _ _ d hd _ hdx => more.isChain.2 (hdx ▸ hd)⟩

theorem infix_cons_iff {c : Char} {cs : List Char} :
    ['x', 'x'] <:+: c :: cs ↔ c = 'x' ∧ cs.head? = some 'x' ∨ ['x', 'x'] <:+: cs := by
  rw [List.infix_cons_iff, List.cons_prefix_cons, eq_comm]
  cases cs with
  | nil => simp
  | cons d cs => simp [List.cons_prefix_cons, eq_comm]

/-- Unknowns in a row stay where stars are dropped. -/
theorem infix_dropStars {cs : List Char} (h : ['x', 'x'] <:+: cs) :
    ['x', 'x'] <:+: dropStars cs := by
  have starts {rest : List Char} (h : rest.head? = some 'x') :
      (dropStars rest).head? = some 'x' := by
    obtain ⟨rest, rfl⟩ := List.head?_eq_some_iff.1 h
    simp [dropStars]
  fun_induction dropStars cs with
  | case1 rest ih =>
    rw [infix_cons_iff, infix_cons_iff] at h
    obtain ⟨hstar, -⟩ | ⟨-, hhead⟩ | h := h
    · cases hstar
    · exact infix_cons_iff.2 (.inl ⟨rfl, starts hhead⟩)
    · exact infix_cons_iff.2 (.inr (ih h))
  | case2 c rest _ ih =>
    obtain ⟨hc, hhead⟩ | h := infix_cons_iff.1 h
    · exact infix_cons_iff.2 (.inl ⟨hc, starts hhead⟩)
    · exact infix_cons_iff.2 (.inr (ih h))
  | case3 => exact h

/-- **A text that states terms has no two unknowns in a row.** -/
theorem States.not_infix {text : List Char} {ts : List (ℕ × Float)} (h : States text ts) :
    ¬['x', 'x'] <:+: text := by
  intro hinfix
  have bare : ['x', 'x'] <:+: text.filter (!isBlank ·) := hinfix.filter (!isBlank ·)
  have pair := h.isSum.isChain.infix (infix_dropStars bare)
  exact List.isChain_pair.1 pair rfl rfl

/-- Another character separates unknowns. -/
theorem infix_append_cons {a b : List Char} {c : Char} (hc : c ≠ 'x')
    (h : ['x', 'x'] <:+: a ++ c :: b) : ['x', 'x'] <:+: a ∨ ['x', 'x'] <:+: b := by
  induction a with
  | nil => exact .inr ((infix_cons_iff.1 h).resolve_left fun h => hc h.1)
  | cons d a ih =>
    obtain ⟨hd, hhead⟩ | h := infix_cons_iff.1 h
    · cases a with
      | nil => exact absurd (Option.some.inj hhead) hc
      | cons e a => exact .inl (infix_cons_iff.2 (.inl ⟨hd, hhead⟩))
    · exact (ih h).imp_left fun h => infix_cons_iff.2 (.inr h)

/-- **An equation that is solved has no two unknowns in a row.** -/
theorem not_infix_of_solve_eq_ok {text : List Char} {r : Resolution}
    (h : Equation.solve text = .ok r) : ¬['x', 'x'] <:+: text := by
  obtain ⟨left, right, p, q, s, hsides, hp, hq, -⟩ := Equation.exists_sides_of_solve_eq_ok h
  obtain ⟨_, hleft, -⟩ := ofText?_eq_some_iff.1 hp
  obtain ⟨_, hright, -⟩ := ofText?_eq_some_iff.1 hq
  obtain ⟨rfl, -, -⟩ := Equation.sides?_eq_some_iff.1 hsides
  intro hinfix
  exact (infix_append_cons (by decide) hinfix).elim hleft.not_infix hright.not_infix

end Reckoner
