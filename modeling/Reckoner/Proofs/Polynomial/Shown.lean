import Reckoner.Proofs.Decimal.Shown
import Reckoner.Proofs.Polynomial.Exact
import Reckoner.Proofs.Polynomial.Grammar
import Reckoner.Proofs.Token.Literal

/-!
# Reading what is shown of a polynomial

The text of a difference of polynomials is read as a polynomial: each of its coefficients is the
double that the digits shown for it are read as, with the sign that is shown (`ofText?_render`). The
tolerance is more than a unit of the last place, so no coefficient of a difference is shown as zero
(`IsShown.of_tolerance_le`) and no power is lost. What is read is shown in the same way
(`render_reread`), and it is the difference itself if its coefficients are the doubles that are read
(`reread_eq_self`).
-/

namespace Reckoner

open Decimal Double Text Unicode

/-- No blank stands in a term. -/
theorem IsTerm.filter_bare {text : List Char} {k : ℕ} {x : Float} (h : IsTerm text k x) :
    text.filter (!isBlank ·) = text := by
  refine List.filter_eq_self.2 fun c hc => ?_
  by_contra blank
  rw [Bool.not_eq_true, Bool.not_eq_false'] at blank
  have no_literal : isLiteralChar c = false := Bool.eq_false_iff.2 fun hliteral => by
    rw [Token.isBlank_eq_false_of_isLiteralChar hliteral] at blank
    cases blank
  have ne {d : Char} (hd : isBlank d = false) : c ≠ d := by
    rintro rfl
    rw [hd] at blank
    cases blank
  have no_mark : isMark c = false := by
    have lower : c ≠ 'e' := ne (by decide)
    have upper : c ≠ 'E' := ne (by decide)
    simp [isMark, lower, upper]
  exact h.not_mem ⟨no_literal, no_mark⟩ (ne (by decide)) (ne (by decide)) hc

namespace Polynomial

/-! ## Coefficients -/

/-- A finite coefficient that is not shown as zero. -/
structure IsShown (c : Float) : Prop where
  isFinite : c.isFinite = true
  units_ne_zero : shownUnits c ≠ 0

/-- The sign that a coefficient is shown with. -/
def shownSign (c : Float) : Sign := if c < 0 then .minus else .plus

/-- The double that the digits shown for a coefficient are read as. -/
def shownValue (c : Float) : Float := (shownDigits (shownUnits c)).value 0

/-- The coefficient that is read where a coefficient is shown. -/
def rereadCoeff (c : Float) : Float := (shownSign c).apply (shownValue c)

theorem Sign.apply_plus (x : Float) : Sign.plus.apply x = x := rfl

theorem Sign.apply_minus (x : Float) : Sign.minus.apply x = -x := rfl

/-- The tolerance is more than a unit of the last place. -/
theorem IsShown.of_tolerance_le {c : Float} (hc : c.isFinite = true) (h : tolerance ≤ c.abs) :
    IsShown c := by
  refine ⟨hc, fun none_shown => ?_⟩
  have low := two_pow_le_of_tolerance_le hc h
  obtain ⟨-, half⟩ := shownUnits_eq_iff.1 none_shown
  have place : (1 : ℚ) ≤ 2 ^ (-30 : ℤ) * 10 ^ 10 := by norm_num
  have units := mul_le_mul_of_nonneg_right low (by positivity : (0 : ℚ) ≤ 10 ^ 10)
  rw [cast_scale, Nat.cast_zero] at half
  linarith

theorem shownSign_eq_minus_iff {c : Float} (hc : c.isFinite = true) :
    shownSign c = .minus ↔ value c < 0 := by
  have zero : IsExact 0 (0 : ℤ) := isExact_literal 0 (by decide)
  have below : c < 0 ↔ value c < 0 := by
    rw [lt_iff hc zero.isFinite, zero.value_eq, Int.cast_zero]
  rw [← below, shownSign]
  split <;> simp_all

section Coefficient

variable {c : Float} (h : IsShown c)

include h

/-- The digits are read as a positive double that is shown by the same digits. -/
theorem IsShown.shownValue_spec :
    (shownValue c).isFinite = true ∧ 0 < value (shownValue c) ∧
      shownUnits (shownValue c) = shownUnits c := by
  have near := isNearest_shown c
  obtain ⟨units, positive⟩ := shownUnits_of_isNearest h.isFinite near
  exact ⟨near.isFinite, positive h.units_ne_zero, units⟩

theorem IsShown.isDecimal : IsDecimal (Decimal.render c.abs) (shownDigits (shownUnits c)) := by
  rw [render_abs h.isFinite]
  exact isDecimal_renderUnits _

theorem IsShown.value_rereadCoeff_ne_zero : value (rereadCoeff c) ≠ 0 := by
  obtain ⟨-, positive, -⟩ := h.shownValue_spec
  unfold rereadCoeff
  cases shownSign c with
  | plus =>
    rw [Sign.apply_plus]
    exact positive.ne'
  | minus =>
    rw [Sign.apply_minus, value_neg]
    exact neg_ne_zero.2 positive.ne'

/-- **What is read has the sign that was shown.** -/
theorem IsShown.shownSign_rereadCoeff : shownSign (rereadCoeff c) = shownSign c := by
  obtain ⟨finite, positive, -⟩ := h.shownValue_spec
  unfold rereadCoeff
  cases shownSign c with
  | plus =>
    have not_minus := mt (shownSign_eq_minus_iff finite).1 positive.not_gt
    rw [Sign.apply_plus]
    cases hs : shownSign (shownValue c) with
    | plus => rfl
    | minus => exact absurd hs not_minus
  | minus =>
    have finite_neg : (-shownValue c).isFinite = true := by rw [isFinite_neg, finite]
    rw [Sign.apply_minus, shownSign_eq_minus_iff finite_neg, value_neg]
    exact neg_neg_of_pos positive

theorem IsShown.abs_rereadCoeff : (rereadCoeff c).abs = shownValue c := by
  obtain ⟨-, positive, -⟩ := h.shownValue_spec
  unfold rereadCoeff
  cases shownSign c with
  | plus => rw [Sign.apply_plus, abs_eq_self positive]
  | minus => rw [Sign.apply_minus, abs_opposite, abs_eq_self positive]

/-- **What is read is shown by the digits that were shown.** -/
theorem IsShown.render_abs_rereadCoeff :
    Decimal.render (rereadCoeff c).abs = Decimal.render c.abs := by
  obtain ⟨finite, positive, units⟩ := h.shownValue_spec
  rw [h.abs_rereadCoeff, ← abs_eq_self positive, render_abs finite, units, render_abs h.isFinite]

/-- A coefficient that its digits are read as is read as itself. -/
theorem IsShown.rereadCoeff_eq_self (hread : read? (Decimal.render c.abs) = some c.abs) :
    rereadCoeff c = c := by
  have same : shownValue c = c.abs :=
    Option.some.inj ((read?_eq_some_iff.2 ⟨_, h.isDecimal, rfl⟩).symm.trans hread)
  have magnitude : IsExact c.abs |value c| := IsExact.abs ⟨h.isFinite, rfl⟩
  obtain ⟨-, positive, -⟩ := h.shownValue_spec
  rw [same, magnitude.value_eq, abs_pos] at positive
  have negative := shownSign_eq_minus_iff h.isFinite
  rw [rereadCoeff, same]
  cases hs : shownSign c with
  | plus =>
    have nonneg : ¬value c < 0 := fun hneg => by
      rw [negative.2 hneg] at hs
      cases hs
    rw [Sign.apply_plus, abs_eq_self (lt_of_le_of_ne (not_lt.1 nonneg) positive.symm)]
  | minus =>
    have opposite : 0 < value (-c) := by
      rw [value_neg]
      exact neg_pos_of_neg (negative.1 hs)
    rw [Sign.apply_minus, ← abs_opposite, abs_eq_self opposite, opposite_opposite]

end Coefficient

/-! ## Terms -/

/-- The text behind the unknown. -/
theorem isPower_toDigits {k : ℕ} (hk : k + 1 ≤ maxPower) :
    IsPower ('^' :: Nat.toDigits 10 (k + 1)) (k + 1) := by
  have digits : (Nat.toDigits 10 (k + 1)).all Char.isDigit = true :=
    List.all_eq_true.2 fun _ hc => Nat.isDigit_of_mem_toDigits (by decide) (by decide) hc
  have number : Nat.ofDigitChars 10 (Nat.toDigits 10 (k + 1)) 0 = k + 1 :=
    Nat.ofDigitChars_toDigits (by decide) (by decide)
  have power : IsPower _ (Numeral.value ⟨_, Nat.toDigits_ne_nil, digits⟩) :=
    .numeral _ (number.trans_le hk)
  rwa [Numeral.value, number] at power

/-- A one that is left out is read as a one. -/
theorem IsShown.isCoefficient {c : Float} (h : IsShown c) :
    IsCoefficient (if Decimal.text c.abs = "1" then [] else Decimal.render c.abs)
      (shownValue c) := by
  by_cases one : Decimal.text c.abs = "1"
  · have digit : Decimal.render c.abs = ['1'] := String.ofList_inj.1 one
    have read_one : IsDecimal ['1'] ⟨['1'], []⟩ := .whole (by simp) (by decide)
    have shown := h.isDecimal
    rw [digit] at shown
    have value_one : shownValue c = 1 := by
      rw [shownValue, shown.unique read_one]
      rfl
    rw [if_pos one, value_one]
    exact .absent
  · rw [if_neg one]
    exact .decimal h.isDecimal h.shownValue_spec.1

theorem IsShown.isTerm_renderTerm {c : Float} (h : IsShown c) {k : ℕ} (hk : k ≤ maxPower) :
    IsTerm (renderTerm k c).toList k (shownValue c) := by
  cases k with
  | zero =>
    have text : (renderTerm 0 c).toList = Decimal.render c.abs := String.toList_ofList
    rw [text]
    exact .constant (.decimal h.isDecimal) h.shownValue_spec.1
  | succ k =>
    have before : (if Decimal.text c.abs = "1" then "" else Decimal.text c.abs).toList =
        if Decimal.text c.abs = "1" then [] else Decimal.render c.abs := by
      split
      · rfl
      · exact String.toList_ofList
    have text : (renderTerm (k + 1) c).toList =
        (if Decimal.text c.abs = "1" then [] else Decimal.render c.abs) ++
          'x' :: if k = 0 then [] else '^' :: Nat.toDigits 10 (k + 1) := by
      rw [renderTerm, String.toList_append, before]
      congr 1
      split
      · rfl
      · rw [String.toList_append, Nat.toString_eq_ofList_toDigits, String.toList_ofList]
        simp
    rw [text]
    refine .unknown h.isCoefficient ?_
    split
    · rename_i hk0
      rw [hk0]
      exact .absent
    · exact isPower_toDigits hk

/-! ## Sums -/

/-- A term behind its sign, as it is shown. -/
def signedTerm (t : ℕ × Float) : List Char :=
  ' ' :: (shownSign t.2).char :: ' ' :: (renderTerm t.1 t.2).toList

/-- The term that is read where a term is shown. -/
def rereadTerm (t : ℕ × Float) : ℕ × Float := (t.1, rereadCoeff t.2)

/-- Without its blanks what is shown behind the first term states the terms that are read. -/
theorem areTerms_signedTerms {ts : List (ℕ × Float)}
    (h : ∀ t ∈ ts, t.1 ≤ maxPower ∧ IsShown t.2) :
    AreTerms ((ts.flatMap signedTerm).filter (!isBlank ·)) (ts.map rereadTerm) := by
  induction ts with
  | nil => exact .nil
  | cons t ts ih =>
    obtain ⟨⟨hk, shown⟩, more⟩ := List.forall_mem_cons.1 h
    have term := shown.isTerm_renderTerm hk
    have visible : isBlank (shownSign t.2).char = false := by
      cases shownSign t.2 <;> decide
    have bare : (signedTerm t).filter (!isBlank ·) =
        (shownSign t.2).char :: (renderTerm t.1 t.2).toList := by
      rw [signedTerm, List.filter_cons_of_neg (by decide),
        List.filter_cons_of_pos (by simp [visible]), List.filter_cons_of_neg (by decide),
        term.filter_bare]
    rw [List.flatMap_cons, List.filter_append, bare]
    exact .cons _ term (ih more)

theorem IsShown.renderTerm_rereadCoeff {c : Float} (h : IsShown c) (k : ℕ) :
    renderTerm k (rereadCoeff c) = renderTerm k c := by
  have number : Decimal.text (rereadCoeff c).abs = Decimal.text c.abs :=
    congrArg String.ofList h.render_abs_rereadCoeff
  simp only [renderTerm, number]

theorem IsShown.signedTerm_reread {t : ℕ × Float} (h : IsShown t.2) :
    signedTerm (rereadTerm t) = signedTerm t := by
  rw [signedTerm, rereadTerm, h.shownSign_rereadCoeff, h.renderTerm_rereadCoeff, signedTerm]

theorem toList_render {p : Polynomial} {k : ℕ} {c : Float} {rest : List (ℕ × Float)}
    (h : p.monomials = (k, c) :: rest) :
    p.render.toList = (if shownSign c = .minus then ['-'] else []) ++
      ((renderTerm k c).toList ++ rest.flatMap signedTerm) := by
  have sign : (if c < 0 then "-" else "").toList = if shownSign c = .minus then ['-'] else [] := by
    unfold shownSign
    split <;> rfl
  have more : (String.join (rest.map fun t =>
      (if t.2 < 0 then " - " else " + ") ++ renderTerm t.1 t.2)).toList =
        rest.flatMap signedTerm := by
    rw [String.toList_join, List.flatMap_map]
    congr 1
    funext t
    rw [String.toList_append, signedTerm, shownSign]
    split <;> rfl
  rw [render, h]
  simp only [String.toList_append, sign, List.append_assoc]
  rw [← more]

/-- Without its blanks what is shown is a sum of the terms that are read. -/
theorem isSum_render {p : Polynomial} (nonempty : p.isZero = false)
    (h : ∀ t ∈ p.monomials, IsShown t.2) :
    IsSum (p.render.toList.filter (!isBlank ·)) (p.monomials.map rereadTerm) := by
  have terms : ∀ t ∈ p.monomials, t.1 ≤ maxPower ∧ IsShown t.2 := fun t ht =>
    ⟨le_maxPower_of_mem ht, h t ht⟩
  cases hp : p.monomials with
  | nil => simp [isZero, hp] at nonempty
  | cons t rest =>
    obtain ⟨k, c⟩ := t
    rw [hp] at terms
    obtain ⟨⟨hk, shown⟩, others⟩ := List.forall_mem_cons.1 terms
    have term : IsTerm (renderTerm k c).toList k (shownValue c) := shown.isTerm_renderTerm hk
    have more := areTerms_signedTerms others
    rw [toList_render hp, List.filter_append, List.filter_append, term.filter_bare, List.map_cons,
      rereadTerm, rereadCoeff]
    -- the sign of the first term is shown only if it is a minus
    cases shownSign c with
    | plus =>
      have no_sign : Sign.plus ≠ .minus := by decide
      rw [if_neg no_sign, List.filter_nil, List.nil_append, Sign.apply_plus]
      exact .unsigned term more
    | minus =>
      have minus : ['-'].filter (!isBlank ·) = ['-'] := by decide
      rw [if_pos rfl, minus, List.singleton_append]
      exact .signed (.cons .minus term more) (List.cons_ne_nil _ _)

/-- **What is shown states the terms that are read.** -/
theorem states_render {p : Polynomial} (nonempty : p.isZero = false)
    (h : ∀ t ∈ p.monomials, IsShown t.2) : States p.render.toList (p.monomials.map rereadTerm) := by
  have sum := isSum_render nonempty h
  have no_star : '*' ∉ p.render.toList.filter (!isBlank ·) :=
    sum.not_mem (by decide) (by decide) (by decide) rfl
  have dropped : dropStars (p.render.toList.filter (!isBlank ·)) =
      p.render.toList.filter (!isBlank ·) := by
    simpa [dropStars] using dropStars_append no_star []
  refine .of_isSum ?_
  rwa [dropped]

/-! ## Polynomials -/

/-- The polynomial that is read where a polynomial is shown. -/
def reread (p : Polynomial) : Polynomial := ⟨p.terms.map (Option.map rereadCoeff)⟩

theorem get_reread (p : Polynomial) (k : Fin (maxPower + 1)) :
    p.reread.terms.get k = (p.terms.get k).map rereadCoeff := Vector.get_map ..

theorem monomials_reread (p : Polynomial) : p.reread.monomials = p.monomials.map rereadTerm := by
  unfold monomials
  rw [List.map_filterMap]
  congr 1
  funext k
  have get_eq (q : Polynomial) : q.terms[k] = q.terms.get k := rfl
  rw [get_eq, get_eq, get_reread]
  cases p.terms.get k <;> rfl

/-- **What is shown of a polynomial is read.** -/
theorem ofText?_render {p : Polynomial} (nonempty : p.isZero = false)
    (h : ∀ t ∈ p.monomials, IsShown t.2) : ofText? p.render.toList = some p.reread := by
  have states := states_render nonempty h
  rw [← monomials_reread] at states
  refine ofText?_eq_some_iff_states.2 ⟨_, states, isTotal_monomials ?_⟩
  rw [monomials_reread]
  intro t ht
  obtain ⟨u, hu, rfl⟩ := List.mem_map.1 ht
  exact zero_add_eq (h u hu).value_rereadCoeff_ne_zero

/-- **What is read is shown in the same way.** -/
theorem render_reread {p : Polynomial} (h : ∀ t ∈ p.monomials, IsShown t.2) :
    p.reread.render = p.render := by
  cases hp : p.monomials with
  | nil =>
    rw [render, render, monomials_reread, hp]
    rfl
  | cons t rest =>
    obtain ⟨k, c⟩ := t
    rw [hp] at h
    obtain ⟨first, others⟩ := List.forall_mem_cons.1 h
    have hq : p.reread.monomials = (k, rereadCoeff c) :: rest.map rereadTerm := by
      rw [monomials_reread, hp]
      rfl
    have more : (rest.map rereadTerm).flatMap signedTerm = rest.flatMap signedTerm := by
      rw [List.flatMap_map]
      exact List.flatMap_congr fun t ht => (others t ht).signedTerm_reread
    refine String.toList_inj.1 ?_
    rw [toList_render hp, toList_render hq, first.shownSign_rereadCoeff,
      first.renderTerm_rereadCoeff, more]

/-- A polynomial that is read as it is shown, coefficient by coefficient. -/
theorem reread_eq_self {p : Polynomial} (h : ∀ t ∈ p.monomials, IsShown t.2)
    (hread : ∀ t ∈ p.monomials, read? (Decimal.render t.2.abs) = some t.2.abs) :
    p.reread = p := by
  refine ext_get fun k => ?_
  rw [get_reread]
  cases hc : p.terms.get k with
  | none => rfl
  | some c =>
    have hmem : (k.val, c) ∈ p.monomials := val_mem_monomials.2 hc
    have same : rereadCoeff c = c := (h _ hmem).rereadCoeff_eq_self (hread _ hmem)
    rw [Option.map_some, same]

/-- What is left of a difference and finite is shown. -/
theorem isShown_of_mem_sub {p q : Polynomial} {t : ℕ × Float} (ht : t ∈ (p.sub q).monomials)
    (finite : t.2.isFinite = true) : IsShown t.2 := by
  obtain ⟨k, -, hk⟩ := mem_monomials.1 ht
  rw [get_sub] at hk
  exact .of_tolerance_le finite (le_abs_of_subCoeff hk)

/-- **What is shown of a difference is read**: with the same powers, as a polynomial that is shown
in the same way, and as the difference itself if its coefficients are the doubles that their texts
are read as. -/
theorem ofText?_render_sub {p q : Polynomial} (nonempty : (p.sub q).isZero = false)
    (finite : ∀ t ∈ (p.sub q).monomials, t.2.isFinite = true) :
    ∃ r, ofText? (p.sub q).render.toList = some r ∧
      (∀ k, (∃ c, (k, c) ∈ r.monomials) ↔ ∃ c, (k, c) ∈ (p.sub q).monomials) ∧
      r.render = (p.sub q).render ∧
      ((∀ t ∈ (p.sub q).monomials, read? (Decimal.render t.2.abs) = some t.2.abs) →
        r = p.sub q) := by
  have shown : ∀ t ∈ (p.sub q).monomials, IsShown t.2 := fun t ht =>
    isShown_of_mem_sub ht (finite t ht)
  refine ⟨(p.sub q).reread, ofText?_render nonempty shown, fun k => ?_, render_reread shown,
    reread_eq_self shown⟩
  rw [monomials_reread]
  constructor
  · rintro ⟨c, hc⟩
    obtain ⟨t, ht, heq⟩ := List.mem_map.1 hc
    cases heq
    exact ⟨t.2, ht⟩
  · rintro ⟨c, hc⟩
    exact ⟨rereadCoeff c, List.mem_map.2 ⟨(k, c), hc, rfl⟩⟩

theorem ofText?_render_sub_third :
    let d := (zero.addTerms [(2, 1), (0, -0.5)]).sub (zero.addTerms [(1, 0.33333333333)])
    d.render = "x^2 - 0.3333333333x - 0.5" ∧ d.isZero = false ∧
      (∀ t ∈ d.monomials, t.2.isFinite = true) ∧
      ∃ r, ofText? d.render.toList = some r ∧
        (∀ k, (∃ c, (k, c) ∈ r.monomials) ↔ ∃ c, (k, c) ∈ d.monomials) ∧ r.render = d.render ∧
        ((∀ t ∈ d.monomials, read? (Decimal.render t.2.abs) = some t.2.abs) → r = d) := by
  intro d
  have text : d.render = "x^2 - 0.3333333333x - 0.5" := by decide +kernel
  have nonempty : d.isZero = false := by decide +kernel
  have all_finite : d.monomials.all (fun t => t.2.isFinite) = true := by decide +kernel
  have finite : ∀ t ∈ d.monomials, t.2.isFinite = true := List.all_eq_true.1 all_finite
  exact ⟨text, nonempty, finite, ofText?_render_sub nonempty finite⟩

end Polynomial

end Reckoner
