import Reckoner.Proofs.Double.Arithmetic
import Reckoner.Proofs.Polynomial.SignedSum

/-!
# Reading signed sums

The text of a sum, without its stars, splits into its signs and its terms (`splitTerms?_bare`), and
each term is read as its power and its coefficient (`readTerm?_bare`), which is exact below
`2 ^ 53`.
-/

namespace Reckoner

open Double Reckoner.Polynomial Text

/-! ## Stars -/

theorem dropStars_append {cs : List Char} (h : '*' ∉ cs) (ds : List Char) :
    dropStars (cs ++ ds) = cs ++ dropStars ds := by
  induction cs with
  | nil => rfl
  | cons c cs ih =>
    have hc : c ≠ '*' := fun hc => h (hc ▸ List.mem_cons_self)
    have ih := ih fun hm => h (List.mem_cons_of_mem _ hm)
    rw [List.cons_append, dropStars, ih]
    · rfl
    · exact fun _ hc' => absurd hc' hc

theorem Numeral.not_mem_digits (n : Numeral) {c : Char} (hc : c.isDigit = false) :
    c ∉ n.digits := fun h => by
  have := List.all_eq_true.1 n.all_isDigit c h
  rw [hc] at this
  cases this

theorem star_not_mem_powerText (k : Option {n : Numeral // n.value ≤ maxPower}) :
    '*' ∉ Summand.powerText k := by
  cases k with
  | none => simp [Summand.powerText]
  | some k => simp [Summand.powerText, k.1.not_mem_digits (c := '*') rfl]

/-- Dropping the stars of a term. -/
theorem dropStars_textWith_append (t : Summand) (cs : List Char) :
    dropStars (t.textWith true ++ cs) = t.textWith false ++ dropStars cs := by
  have unknown (k : Option {n : Numeral // n.value ≤ maxPower}) :
      dropStars ('x' :: (Summand.powerText k ++ cs)) =
        'x' :: (Summand.powerText k ++ dropStars cs) := by
    have h : '*' ∉ 'x' :: Summand.powerText k := by simp [star_not_mem_powerText]
    exact dropStars_append h cs
  cases t with
  | constant n => exact dropStars_append (n.not_mem_digits rfl) cs
  | unknown before k =>
    match before with
    | none => exact unknown k
    | some (n, false) =>
      simp only [Summand.textWith, Summand.beforeText, Bool.and_false, Bool.false_eq_true,
        reduceIte, List.append_nil, List.append_assoc, List.cons_append]
      rw [dropStars_append (n.not_mem_digits rfl), unknown]
    | some (n, true) =>
      simp only [Summand.textWith, Summand.beforeText, Bool.and_true, Bool.false_eq_true, reduceIte,
        List.append_nil, List.append_assoc, List.cons_append, List.nil_append]
      rw [dropStars_append (n.not_mem_digits rfl), dropStars,
        dropStars_append (star_not_mem_powerText k)]

theorem dropStars_sign_append (sign : Sign) (cs : List Char) :
    dropStars (sign.char :: cs) = sign.char :: dropStars cs := by
  have h : '*' ∉ [sign.char] := by cases sign <;> decide
  exact dropStars_append h cs

/-- Dropping the stars of a sum. -/
theorem SignedSum.dropStars_text (s : SignedSum) : dropStars s.text = s.textWith false := by
  have rest (ts : List (Sign × Summand)) : dropStars (textOf true ts) = textOf false ts := by
    induction ts with
    | nil => rfl
    | cons t ts ih =>
      simp only [textOf, List.flatMap_cons, List.cons_append] at ih ⊢
      rw [dropStars_sign_append, dropStars_textWith_append, ih]
  have body : dropStars (s.first.textWith true ++ textOf true s.rest) =
      s.first.textWith false ++ textOf false s.rest := by
    rw [dropStars_textWith_append, rest]
  unfold text textWith
  cases s.sign with
  | none => exact body
  | some sign => exact (dropStars_sign_append sign _).trans (congrArg _ body)

/-! ## Signs and terms -/

/-- Whether a character is no sign. -/
def isUnsigned (c : Char) : Bool := (Sign.ofChar? c).isNone

theorem ofChar?_char (sign : Sign) : Sign.ofChar? sign.char = some sign := by cases sign <;> rfl

theorem isUnsigned_char (sign : Sign) : isUnsigned sign.char = false := by cases sign <;> rfl

theorem IsTermChar.isUnsigned {stars : Bool} {c : Char} (h : IsTermChar stars c) :
    isUnsigned c = true := by
  unfold Reckoner.isUnsigned Sign.ofChar?
  split
  · exact absurd h (by cases stars <;> decide)
  · exact absurd h (by cases stars <;> decide)
  · rfl

theorem Summand.textWith_ne_nil (stars : Bool) (t : Summand) : t.textWith stars ≠ [] := by
  cases t with
  | constant n => exact n.ne_nil
  | unknown before power => simp [textWith]

theorem Summand.all_isUnsigned (stars : Bool) (t : Summand) :
    (t.textWith stars).all Reckoner.isUnsigned = true :=
  List.all_eq_true.2 fun _ hc => (isTermChar hc).isUnsigned

/-- A term in front of more terms is a run. -/
theorem pieces_textWith_append (t : Summand) (ts : List (Sign × Summand)) :
    pieces isUnsigned (t.textWith false ++ SignedSum.textOf false ts) =
      .run (t.textWith false) :: pieces isUnsigned (SignedSum.textOf false ts) := by
  have run := pieces_of_all (t.textWith_ne_nil false) (t.all_isUnsigned false)
  cases ts with
  | nil => simpa [SignedSum.textOf, pieces] using run
  | cons u ts =>
    simp only [SignedSum.textOf, List.flatMap_cons, List.cons_append]
    rw [pieces_append_single (isUnsigned_char u.1), run,
      pieces_cons_single (isUnsigned_char u.1)]
    rfl

theorem signedTerms?_textOf (ts : List (Sign × Summand)) :
    signedTerms? (pieces isUnsigned (SignedSum.textOf false ts)) =
      some (ts.map fun t => (t.1, t.2.textWith false)) := by
  induction ts with
  | nil => rfl
  | cons t ts ih =>
    have split : pieces isUnsigned (SignedSum.textOf false (t :: ts)) = .single t.1.char ::
        .run (t.2.textWith false) :: pieces isUnsigned (SignedSum.textOf false ts) := by
      rw [← pieces_textWith_append]
      simp only [SignedSum.textOf, List.flatMap_cons, List.cons_append]
      rw [pieces_cons_single (isUnsigned_char t.1)]
    rw [split, signedTerms?, ofChar?_char, ih]
    rfl

theorem splitTerms?_run {text t : List Char} {rest : List Piece}
    (h : pieces isUnsigned text = .run t :: rest) :
    splitTerms? text = (signedTerms? rest).map ((.plus, t) :: ·) := by
  have h : pieces (fun c => (Sign.ofChar? c).isNone) text = .run t :: rest := h
  rw [splitTerms?, h]

theorem splitTerms?_single {text : List Char} {c : Char} {rest : List Piece}
    (h : pieces isUnsigned text = .single c :: rest) :
    splitTerms? text = signedTerms? (.single c :: rest) := by
  have h : pieces (fun c => (Sign.ofChar? c).isNone) text = .single c :: rest := h
  rw [splitTerms?, h]

/-- **The text of a sum without its stars splits into its signs and its terms.** -/
theorem SignedSum.splitTerms?_bare (s : SignedSum) :
    splitTerms? (s.textWith false) = some (s.terms.map fun t => (t.1, t.2.textWith false)) := by
  rw [textWith, terms]
  cases s.sign with
  | none =>
    have h := pieces_textWith_append s.first s.rest
    simp only [Option.toList_none, List.map_nil, List.nil_append]
    rw [splitTerms?_run h, signedTerms?_textOf]
    rfl
  | some sign =>
    have h := signedTerms?_textOf ((sign, s.first) :: s.rest)
    simp only [textOf, List.flatMap_cons, List.cons_append] at h
    simp only [Option.toList_some, List.map_cons, List.map_nil, List.cons_append, List.nil_append,
      textOf]
    have split := pieces_cons_single (isUnsigned_char sign)
      (s.first.textWith false ++ s.rest.flatMap fun t => t.1.char :: t.2.textWith false)
    rw [splitTerms?_single split, ← split]
    exact h

/-! ## The parts of a term -/

theorem Numeral.read? (n : Numeral) :
    Decimal.read? n.digits = some (Float.ofScientific n.value false 0) := by
  have whole : n.digits.takeWhile Char.isDigit = n.digits :=
    List.takeWhile_eq_self_iff.2 (List.all_eq_true.1 n.all_isDigit)
  have rest : n.digits.dropWhile Char.isDigit = [] :=
    List.dropWhile_eq_nil_iff.2 (List.all_eq_true.1 n.all_isDigit)
  rw [Decimal.read?, Decimal.Digits.ofText?, whole, rest]
  simp only [n.ne_nil, reduceIte, Option.map_some, Decimal.Digits.value, Decimal.Digits.units,
    List.append_nil, List.length_nil]
  rfl

theorem Numeral.readScientific? (n : Numeral) :
    Decimal.readScientific? n.digits = some (Float.ofScientific n.value false 0) := by
  have marks : n.digits.dropWhile (!(fun c => c = 'e' || c = 'E' : Char → Bool) ·) = [] := by
    refine List.dropWhile_eq_nil_iff.2 fun c hc => ?_
    have hdigit := List.all_eq_true.1 n.all_isDigit c hc
    have he : c ≠ 'e' := by
      rintro rfl
      cases hdigit
    have hE : c ≠ 'E' := by
      rintro rfl
      cases hdigit
    simp [he, hE]
  unfold Decimal.readScientific?
  simp only [marks]
  exact n.read?

theorem Numeral.isExact {n : Numeral} (h : n.value < 2 ^ 53) :
    IsExact (Float.ofScientific n.value false 0) (n.value : ℤ) := isExact_ofScientific h

theorem finite?_of_isExact {x : Float} {q : ℚ} (h : IsExact x q) : finite? (some x) = some x := by
  simp [finite?, h.isFinite]

theorem readCoefficient?_beforeText {before : Option (Numeral × Bool)}
    {power : Option {n : Numeral // n.value ≤ maxPower}}
    (h : (Summand.unknown before power).coefficient < 2 ^ 53) :
    ∃ x, readCoefficient? (Summand.beforeText false before) = some x ∧
      IsExact x ((Summand.unknown before power).coefficient : ℤ) := by
  match before with
  | none => exact ⟨1, rfl, isExact_literal 1 (by decide)⟩
  | some (n, star) =>
    refine ⟨_, ?_, n.isExact h⟩
    simp only [Summand.beforeText, Bool.false_and, Bool.false_eq_true, reduceIte, List.append_nil,
      readCoefficient?, n.ne_nil, n.read?]
    exact finite?_of_isExact (n.isExact h)

theorem Summand.power_le (t : Summand) : t.power < maxPower + 1 := by
  match t with
  | .constant _ => exact Nat.succ_pos maxPower
  | .unknown _ none => exact Nat.succ_lt_succ (Nat.succ_pos 5)
  | .unknown _ (some k) => exact Nat.lt_succ_of_le k.2

theorem readPower?_powerText (before : Option (Numeral × Bool))
    (power : Option {n : Numeral // n.value ≤ maxPower}) :
    readPower? (Summand.powerText power) =
      some ⟨_, (Summand.unknown before power).power_le⟩ := by
  cases power with
  | none => rfl
  | some k =>
    have hk : Nat.ofDigitChars 10 k.1.digits 0 < maxPower + 1 := Nat.lt_succ_of_le k.2
    simp only [Summand.powerText, readPower?, k.1.ne_nil, k.1.all_isDigit, ne_eq, not_false_eq_true,
      and_self, reduceIte, hk, reduceDIte]
    rfl

theorem not_mem_beforeText (before : Option (Numeral × Bool)) :
    ∀ c ∈ Summand.beforeText false before, decide (c ≠ 'x') = true := by
  intro c hc
  match before with
  | none => cases hc
  | some (n, star) =>
    simp only [Summand.beforeText, Bool.false_and, Bool.false_eq_true, reduceIte,
      List.append_nil] at hc
    refine decide_eq_true fun hx => ?_
    exact n.not_mem_digits (c := 'x') rfl (hx ▸ hc)

/-- **A term is read as its power and its exact coefficient.** -/
theorem readTerm?_bare {t : Summand} (h : t.coefficient < 2 ^ 53) :
    ∃ x, readTerm? (t.textWith false) = some (⟨t.power, t.power_le⟩, x) ∧
      IsExact x (t.coefficient : ℤ) := by
  cases t with
  | constant n =>
    have hx : n.digits.dropWhile (fun c => decide (c ≠ 'x')) = [] :=
      List.dropWhile_eq_nil_iff.2 fun c hc => decide_eq_true fun hx =>
        n.not_mem_digits (c := 'x') rfl (hx ▸ hc)
    refine ⟨_, ?_, n.isExact h⟩
    rw [Summand.textWith, readTerm?, hx, n.readScientific?]
    simp only [finite?_of_isExact (n.isExact h)]
    rfl
  | unknown before power =>
    obtain ⟨x, hread, hx⟩ := readCoefficient?_beforeText h
    refine ⟨x, ?_, hx⟩
    have before_x := not_mem_beforeText before
    have hdrop : (Summand.beforeText false before ++ 'x' :: Summand.powerText power).dropWhile
        (fun c => decide (c ≠ 'x')) = 'x' :: Summand.powerText power := by
      rw [List.dropWhile_append_of_pos before_x]
      rfl
    have htake : (Summand.beforeText false before ++ 'x' :: Summand.powerText power).takeWhile
        (fun c => decide (c ≠ 'x')) = Summand.beforeText false before := by
      rw [List.takeWhile_append_of_pos before_x]
      exact List.append_nil _
    rw [Summand.textWith, readTerm?, hdrop]
    simp only [htake, hread, readPower?_powerText before power]
    rfl

end Reckoner
