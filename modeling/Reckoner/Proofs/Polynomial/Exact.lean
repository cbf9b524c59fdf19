import Reckoner.Proofs.Polynomial.Difference
import Reckoner.Proofs.Polynomial.Reading

/-!
# Exact polynomials

While the coefficients of a sum stay small, nothing is rounded on the way from its text to its
polynomial: a power is present if some term has it, with the exact sum of its coefficients
(`Tracks`, `SignedSum.exists_ofText?`). The difference of two such polynomials has exactly the
powers whose coefficients do not cancel (`holds_sub`), and so its degree is that of the exact
difference.
-/

namespace Reckoner

open Double Reckoner.Polynomial Text SignedSum

/-! ## Sums of coefficients -/

theorem SignedSum.coeffOf_append (ts us : List (Sign × Summand)) (k : ℕ) :
    coeffOf (ts ++ us) k = coeffOf ts k + coeffOf us k := by
  simp [coeffOf]

theorem SignedSum.coeffOf_singleton (t : Sign × Summand) (k : ℕ) :
    coeffOf [t] k = if t.2.power = k then t.1.applyInt t.2.coefficient else 0 := by
  simp [coeffOf]

theorem SignedSum.weightOf_append (ts us : List (Sign × Summand)) :
    weightOf (ts ++ us) = weightOf ts + weightOf us := by
  simp [weightOf]

theorem abs_applyInt (sign : Sign) (n : ℤ) : |sign.applyInt n| = |n| := by
  cases sign
  · rfl
  · exact abs_neg n

theorem SignedSum.abs_coeffOf_le (ts : List (Sign × Summand)) (k : ℕ) :
    |coeffOf ts k| ≤ weightOf ts := by
  induction ts with
  | nil => simp [coeffOf, weightOf]
  | cons t ts ih =>
    have split : coeffOf (t :: ts) k = coeffOf [t] k + coeffOf ts k := coeffOf_append [t] ts k
    have weight : weightOf (t :: ts) = t.2.coefficient + weightOf ts := rfl
    have one : |coeffOf [t] k| ≤ t.2.coefficient := by
      rw [coeffOf_singleton]
      split
      · rw [abs_applyInt, abs_of_nonneg (by omega)]
      · simp
    rw [split, weight]
    push_cast
    exact (abs_add_le _ _).trans (add_le_add one ih)

theorem SignedSum.coeffOf_eq_zero {ts : List (Sign × Summand)} {k : ℕ}
    (h : ∀ t ∈ ts, t.2.power ≠ k) : coeffOf ts k = 0 := by
  induction ts with
  | nil => rfl
  | cons t ts ih =>
    have split : coeffOf (t :: ts) k = coeffOf [t] k + coeffOf ts k := coeffOf_append [t] ts k
    rw [split, coeffOf_singleton, if_neg (h t List.mem_cons_self),
      ih fun u hu => h u (List.mem_cons_of_mem _ hu), add_zero]

/-! ## Adding terms up -/

/-- A power is present if some term has it, with the exact sum of the coefficients. -/
def TracksAt (ts : List (Sign × Summand)) (k : ℕ) : Option Float → Prop
  | none => ∀ t ∈ ts, t.2.power ≠ k
  | some x => (∃ t ∈ ts, t.2.power = k) ∧ IsExact x (coeffOf ts k)

/-- The powers of the terms are present, with the exact sums of their coefficients. -/
def Tracks (p : Polynomial) (ts : List (Sign × Summand)) : Prop :=
  ∀ k : Fin (maxPower + 1), TracksAt ts k (p.terms.get k)

theorem Double.IsExact.applySign {x : Float} {n : ℤ} (h : IsExact x n) (sign : Sign) :
    IsExact (sign.apply x) (sign.applyInt n) := by
  cases sign with
  | plus => exact h
  | minus =>
    have hneg := h.neg
    rw [← Int.cast_neg] at hneg
    exact hneg

theorem TracksAt.isExact_getD {ts : List (Sign × Summand)} {k : ℕ} {c : Option Float}
    (h : TracksAt ts k c) : IsExact (c.getD 0) (coeffOf ts k) := by
  cases c with
  | none =>
    rw [coeffOf_eq_zero h]
    exact isExact_literal 0 (by decide)
  | some x => exact h.2

/-- One more term. -/
theorem Tracks.addTerm {p : Polynomial} {ts : List (Sign × Summand)} (h : Tracks p ts)
    (t : Sign × Summand) {x : Float} (hx : IsExact x (t.2.coefficient : ℤ))
    (small : weightOf (ts ++ [t]) < 2 ^ 53) :
    Tracks (p.addTerm ⟨t.2.power, t.2.power_le⟩ (t.1.apply x)) (ts ++ [t]) := by
  intro j
  rw [get_addTerm]
  have sum := coeffOf_append ts [t] j
  rw [coeffOf_singleton] at sum
  by_cases hj : j = ⟨t.2.power, t.2.power_le⟩
  · have hpower : t.2.power = j := by rw [hj]
    rw [if_pos hj, ← hj]
    rw [if_pos hpower] at sum
    refine ⟨⟨t, by simp, hpower⟩, ?_⟩
    have bound := abs_coeffOf_le (ts ++ [t]) j
    rw [sum] at bound ⊢
    exact (h j).isExact_getD.add (hx.applySign t.1) (bound.trans (by exact_mod_cast small.le))
  · have hpower : t.2.power ≠ j := fun hp => hj (Fin.ext hp.symm)
    rw [if_neg hj]
    rw [if_neg hpower, add_zero] at sum
    have hat := h j
    generalize p.terms.get j = c at hat ⊢
    cases c with
    | none =>
      intro u hu
      obtain hu | hu := List.mem_append.1 hu
      · exact hat u hu
      · exact List.mem_singleton.1 hu ▸ hpower
    | some y =>
      obtain ⟨⟨u, hu, hpu⟩, hy⟩ := hat
      exact ⟨⟨u, List.mem_append_left _ hu, hpu⟩, sum ▸ hy⟩

/-- All terms, one after the other. -/
theorem Tracks.foldlM {p : Polynomial} {ts us : List (Sign × Summand)} (h : Tracks p ts)
    (small : weightOf (ts ++ us) < 2 ^ 53) :
    ∃ q, (us.map fun t => (t.1, t.2.textWith false)).foldlM addSigned? p = some q ∧
      Tracks q (ts ++ us) := by
  induction us generalizing p ts with
  | nil => exact ⟨p, rfl, (List.append_nil ts).symm ▸ h⟩
  | cons t us ih =>
    rw [List.append_cons] at small ⊢
    have small' : weightOf (ts ++ [t]) < 2 ^ 53 := by
      rw [weightOf_append] at small
      omega
    have coefficient : t.2.coefficient < 2 ^ 53 := by
      have : weightOf (ts ++ [t]) = weightOf ts + t.2.coefficient := by
        rw [weightOf_append]
        rfl
      omega
    obtain ⟨x, hread, hx⟩ := readTerm?_bare coefficient
    obtain ⟨q, hq, tracks⟩ := ih (h.addTerm t hx small') small
    refine ⟨q, ?_, tracks⟩
    simp only [List.map_cons, List.foldlM_cons, addSigned?, hread]
    exact hq

/-- **A small sum is read as its exact polynomial.** -/
theorem SignedSum.exists_ofText? {s : SignedSum} (small : s.weight < 2 ^ 53) {text : List Char}
    (h : text.filter (!Unicode.isBlank ·) = s.text) :
    ∃ p, ofText? text = some p ∧ Tracks p s.terms := by
  have start : Tracks Polynomial.zero [] := fun k => by
    simp [Polynomial.zero, TracksAt]
  have small : weightOf ([] ++ s.terms) < 2 ^ 53 := small
  obtain ⟨p, hp, tracks⟩ := start.foldlM small
  refine ⟨p, ?_, tracks⟩
  have nonempty : s.text ≠ [] := by
    intro hnil
    rw [SignedSum.text, SignedSum.textWith, List.append_eq_nil_iff, List.append_eq_nil_iff] at hnil
    exact s.first.textWith_ne_nil true hnil.2.1
  have refused : s.text.any ("()/".toList.contains ·) = false := by
    refine List.any_eq_false.2 fun c hc hmem => ?_
    have cases : c = '(' ∨ c = ')' ∨ c = '/' := by simpa using hmem
    obtain rfl | rfl | rfl := cases
    · exact s.not_mem_text (by decide) (by decide) hc
    · exact s.not_mem_text (by decide) (by decide) hc
    · exact s.not_mem_text (by decide) (by decide) hc
  have stars : (s.textWith false).contains '*' = false := by
    rw [List.contains_eq_mem, decide_eq_false_iff_not]
    exact s.not_mem_text (by decide) (by decide)
  simp only [ofText?, h, s.dropStars_text, nonempty, refused, stars, Bool.false_eq_true, or_self,
    reduceIte, s.splitTerms?_bare]
  exact hp

/-! ## Differences -/

/-- The tolerance lies between zero and one. -/
theorem tolerance_bounds :
    tolerance.isFinite = true ∧ 0 < value tolerance ∧ value tolerance < 1 := by
  have finite : tolerance.isFinite = true := by decide +kernel
  have zero : IsExact 0 (0 : ℤ) := isExact_literal 0 (by decide)
  have one : IsExact 1 (1 : ℤ) := isExact_literal 1 (by decide)
  have pos : (0 : Float) < tolerance := by decide +kernel
  have lt : tolerance < (1 : Float) := by decide +kernel
  rw [lt_iff zero.isFinite finite, zero.value_eq] at pos
  rw [lt_iff finite one.isFinite, one.value_eq] at lt
  exact ⟨finite, by exact_mod_cast pos, by exact_mod_cast lt⟩

/-- The tolerance is more than a power of two. -/
theorem two_pow_le_tolerance : (2 : ℚ) ^ (-30 : ℤ) ≤ value tolerance := by
  have parts : unpack tolerance = .finite .positive 4835703278458517 (-82) (by decide) := rfl
  have split : (2 : ℚ) ^ (-30 : ℤ) = 2 ^ 52 * 2 ^ (-82 : ℤ) := by
    rw [← zpow_natCast, ← zpow_add₀ two_ne_zero]
    rfl
  rw [value, parts, partsValue_positive, split]
  exact mul_le_mul_of_nonneg_right (by norm_num) (by positivity)

theorem two_pow_le_of_tolerance_le {x : Float} (hx : x.isFinite = true)
    (h : tolerance ≤ x.abs) : (2 : ℚ) ^ (-30 : ℤ) ≤ |value x| := by
  have exact_abs := (IsExact.mk hx rfl).abs
  rw [le_iff tolerance_bounds.1 exact_abs.isFinite, exact_abs.value_eq] at h
  exact two_pow_le_tolerance.trans h

/-- A whole number reaches the tolerance unless it is zero. -/
theorem tolerance_le_abs_iff {x : Float} {n : ℤ} (h : IsExact x n) :
    tolerance ≤ x.abs ↔ n ≠ 0 := by
  obtain ⟨finite, pos, lt⟩ := tolerance_bounds
  rw [le_iff finite h.abs.isFinite, h.abs.value_eq]
  constructor
  · rintro hle rfl
    rw [Int.cast_zero, abs_zero] at hle
    exact absurd hle (not_le.2 pos)
  · intro hn
    have one : (1 : ℚ) ≤ |(n : ℚ)| := by exact_mod_cast Int.one_le_abs hn
    exact lt.le.trans one

theorem abs_lt_tolerance_iff {x : Float} {n : ℤ} (h : IsExact x n) :
    x.abs < tolerance ↔ n = 0 := by
  obtain ⟨finite, -, -⟩ := tolerance_bounds
  have hle := tolerance_le_abs_iff h
  rw [le_iff finite h.abs.isFinite] at hle
  rw [lt_iff h.abs.isFinite finite, ← not_le, hle, not_not]

/-- A power is present if its coefficient is not zero, with this coefficient. -/
def HoldsAt (n : ℤ) : Option Float → Prop
  | none => n = 0
  | some x => n ≠ 0 ∧ IsExact x n

/-- A polynomial has the coefficients that `f` gives, and no power with the coefficient zero. -/
def Holds (p : Polynomial) (f : ℕ → ℤ) : Prop :=
  ∀ k : Fin (maxPower + 1), HoldsAt (f k) (p.terms.get k)

theorem holdsAt_keep {x : Float} {n : ℤ} (h : IsExact x n) : HoldsAt n (subCoeff.keep x) := by
  unfold subCoeff.keep
  by_cases hle : x.abs ≥ tolerance
  · rw [if_pos hle]
    exact ⟨(tolerance_le_abs_iff h).1 hle, h⟩
  · rw [if_neg hle]
    exact not_not.1 fun hn => hle ((tolerance_le_abs_iff h).2 hn)

/-- **The difference of exact polynomials has exactly the powers that do not cancel.** -/
theorem Tracks.holds_sub {p q : Polynomial} {ts us : List (Sign × Summand)} (hp : Tracks p ts)
    (hq : Tracks q us) (small : weightOf ts + weightOf us < 2 ^ 53) :
    Holds (p.sub q) fun k => coeffOf ts k - coeffOf us k := by
  intro k
  rw [get_sub]
  have hp := hp k
  have hq := hq k
  have bound : |coeffOf ts k - coeffOf us k| < 2 ^ 53 := by
    have h₁ := abs_coeffOf_le ts k
    have h₂ := abs_coeffOf_le us k
    have h₃ := abs_sub (coeffOf ts k) (coeffOf us k)
    have h₄ : (weightOf ts + weightOf us : ℤ) < 2 ^ 53 := by exact_mod_cast small
    omega
  have diff := hp.isExact_getD.sub hq.isExact_getD bound.le
  generalize p.terms.get k = a at hp diff ⊢
  generalize q.terms.get k = b at hq diff ⊢
  match a, b with
  | none, none =>
    change coeffOf ts k - coeffOf us k = 0
    rw [coeffOf_eq_zero hp, coeffOf_eq_zero hq, sub_zero]
  | some x, none =>
    have hx : IsExact x ((coeffOf ts k - coeffOf us k : ℤ) : ℚ) := by
      rw [coeffOf_eq_zero hq, sub_zero]
      exact hp.2
    exact holdsAt_keep hx
  | none, some y => exact holdsAt_keep diff
  | some x, some y => exact holdsAt_keep diff

/-! ## Degrees -/

/-- No term has a power above the degree. -/
theorem Tracks.power_le_degree {p : Polynomial} {ts : List (Sign × Summand)} (h : Tracks p ts)
    {t : Sign × Summand} (ht : t ∈ ts) : t.2.power ≤ p.degree := by
  refine le_degree (k := ⟨t.2.power, t.2.power_le⟩) fun hnone => ?_
  have absent := h ⟨t.2.power, t.2.power_le⟩
  rw [hnone] at absent
  exact absent t ht rfl

section Holds

variable {p : Polynomial} {f : ℕ → ℤ}

theorem Holds.ne_none_iff (h : Holds p f) (k : Fin (maxPower + 1)) :
    p.terms.get k ≠ none ↔ f k ≠ 0 := by
  have hat := h k
  generalize p.terms.get k = c at hat ⊢
  cases c with
  | none => exact ⟨fun hne => absurd rfl hne, fun hne => absurd hat hne⟩
  | some x => exact ⟨fun _ => hat.1, fun _ => Option.some_ne_none x⟩

theorem Holds.isExact_coeff (h : Holds p f) {k : ℕ} (hk : k < maxPower + 1) :
    IsExact (p.coeff k) (f k) := by
  have hat := h ⟨k, hk⟩
  have coeff : p.coeff k = (p.terms.get ⟨k, hk⟩).getD 0 := by
    rw [Polynomial.coeff, Vector.getElem?_eq_getElem hk]
    rfl
  rw [coeff]
  generalize p.terms.get ⟨k, hk⟩ = c at hat ⊢
  cases c with
  | none =>
    have hzero : f k = 0 := hat
    rw [hzero]
    exact isExact_literal 0 (by decide)
  | some x => exact hat.2

/-- The degree reaches every power that does not cancel. -/
theorem Holds.le_degree (h : Holds p f) {k : ℕ} (hk : k < maxPower + 1) (hne : f k ≠ 0) :
    k ≤ p.degree :=
  Polynomial.le_degree (k := ⟨k, hk⟩) ((h.ne_none_iff _).2 hne)

/-- A degree other than zero does not cancel. -/
theorem Holds.degree_ne_zero (h : Holds p f) (hd : p.degree ≠ 0) :
    f p.degree ≠ 0 ∧ p.degree < maxPower + 1 := by
  obtain ⟨k, hk, hne⟩ := exists_get_degree hd
  rw [← hk]
  exact ⟨(h.ne_none_iff k).1 hne, k.isLt⟩

theorem Holds.degree_le (h : Holds p f) {d : ℕ} (hf : ∀ k, d < k → f k = 0) : p.degree ≤ d := by
  by_contra hlt
  exact (h.degree_ne_zero (by omega)).1 (hf _ (by omega))

end Holds

end Reckoner
