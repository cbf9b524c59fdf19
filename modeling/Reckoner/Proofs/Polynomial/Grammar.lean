import Reckoner.Proofs.Decimal.Grammar
import Reckoner.Proofs.Polynomial.Reading
import Reckoner.Proofs.Polynomial.Totals

/-!
# The grammar of polynomials

The texts that state a polynomial, said without the reader: terms with signs between them, each a
literal, or the unknown with an optional decimal before it and an optional power behind it
(`IsTerm`, `IsSum`). The reader accepts exactly these texts and adds the terms of one power up from
left to right (`ofText?_iff_states`).
-/

namespace Reckoner

open Decimal Reckoner.Polynomial Text Unicode

/-! ## Terms -/

/-- What may stand before the unknown, with its value: nothing, or a finite decimal. -/
inductive IsCoefficient : List Char → Float → Prop
  | absent : IsCoefficient [] 1
  | decimal {text : List Char} {d : Digits} (h : IsDecimal text d)
    (finite : (d.value 0).isFinite = true) : IsCoefficient text (d.value 0)

/-- What may stand behind the unknown, with its value: nothing, or the sign of powers and a numeral
of at most six. -/
inductive IsPower : List Char → ℕ → Prop
  | absent : IsPower [] 1
  | numeral (n : Numeral) (le : n.value ≤ maxPower) : IsPower ('^' :: n.digits) n.value

/-- The texts of terms without their signs, with the power and the coefficient: a finite literal, or
the unknown. Neither is empty or has a sign in it, and a literal has no unknown in it. -/
inductive IsTerm : List Char → ℕ → Float → Prop
  | constant {text : List Char} {x : Float} (h : IsLiteral text x) (finite : x.isFinite = true) :
    IsTerm text 0 x
  | unknown {before behind : List Char} {x : Float} {k : ℕ} (coefficient : IsCoefficient before x)
    (power : IsPower behind k) : IsTerm (before ++ 'x' :: behind) k x

theorem finite?_eq_some_iff {x : Option Float} {y : Float} :
    finite? x = some y ↔ x = some y ∧ y.isFinite = true := Option.filter_eq_some_iff

theorem readCoefficient?_eq_some_iff {text : List Char} {x : Float} :
    readCoefficient? text = some x ↔ IsCoefficient text x := by
  unfold readCoefficient?
  constructor
  · intro h
    split at h
    · rename_i hnil
      cases h
      exact hnil ▸ .absent
    · obtain ⟨h, finite⟩ := finite?_eq_some_iff.1 h
      obtain ⟨d, hd, rfl⟩ := read?_eq_some_iff.1 h
      exact .decimal hd finite
  · rintro (_ | ⟨hd, finite⟩)
    · rfl
    · rw [if_neg hd.ne_nil]
      exact finite?_eq_some_iff.2 ⟨read?_eq_some_iff.2 ⟨_, hd, rfl⟩, finite⟩

theorem readPower?_eq_some_iff {text : List Char} {k : Fin (maxPower + 1)} :
    readPower? text = some k ↔ IsPower text k := by
  constructor
  · intro h
    unfold readPower? at h
    split at h
    · cases h
      exact .absent
    · split at h
      · rename_i hdigits
        obtain ⟨rfl, ne_nil, digits⟩ := hdigits
        dsimp only at h
        split at h
        · rename_i hlt
          cases h
          exact .numeral ⟨_, ne_nil, digits⟩ (Nat.le_of_lt_succ hlt)
        · cases h
      · cases h
  · intro h
    obtain ⟨k, hk⟩ := k
    generalize hj : (⟨k, hk⟩ : Fin (maxPower + 1)).val = j at h
    cases h with
    | absent => exact congrArg some (Fin.ext hj.symm)
    | numeral n le =>
      have hlt : Nat.ofDigitChars 10 n.digits 0 < maxPower + 1 := Nat.lt_succ_of_le le
      simp only [readPower?, n.ne_nil, n.all_isDigit, ne_eq, not_false_eq_true, and_self,
        reduceIte, hlt, reduceDIte]
      exact congrArg some (Fin.ext hj.symm)

theorem IsCoefficient.isLiteralChar {text : List Char} {x : Float} (h : IsCoefficient text x)
    {c : Char} (hc : c ∈ text) : Decimal.isLiteralChar c = true := by
  cases h with
  | absent => cases hc
  | decimal hd _ => exact hd.isLiteralChar hc

theorem IsCoefficient.not_mem {text : List Char} {x : Float} (h : IsCoefficient text x) {c : Char}
    (hc : Decimal.isLiteralChar c = false) : c ∉ text := fun hmem => by
  rw [h.isLiteralChar hmem] at hc
  cases hc

/-- **A term is read if its text is one.** -/
theorem readTerm?_eq_some_iff {text : List Char} {k : Fin (maxPower + 1)} {x : Float} :
    readTerm? text = some (k, x) ↔ IsTerm text k x := by
  constructor
  · intro h
    have text_eq := List.takeWhile_append_dropWhile (p := (decide <| · ≠ 'x')) (l := text)
    unfold readTerm? at h
    split at h
    · obtain ⟨y, hy, heq⟩ := Option.map_eq_some_iff.1 h
      cases heq
      obtain ⟨hy, finite⟩ := finite?_eq_some_iff.1 hy
      exact .constant (readScientific?_eq_some_iff.1 hy) finite
    · rename_i c behind hdrop
      have hc : c = 'x' := by simpa using eq_false_of_dropWhile_eq_cons hdrop
      rw [hdrop, hc] at text_eq
      obtain ⟨y, hy, h⟩ := Option.bind_eq_some_iff.1 h
      obtain ⟨j, hj, h⟩ := Option.bind_eq_some_iff.1 h
      cases h
      rw [← text_eq]
      exact .unknown (readCoefficient?_eq_some_iff.1 hy) (readPower?_eq_some_iff.1 hj)
  · intro h
    generalize hj : k.val = j at h
    cases h with
    | constant h finite =>
      have hx : 'x' ∉ text := h.not_mem (by decide)
      have hdrop : text.dropWhile (decide <| · ≠ 'x') = [] :=
        List.dropWhile_eq_nil_iff.2 fun c hc => decide_eq_true fun h => hx (h ▸ hc)
      simp only [readTerm?, hdrop, readScientific?_eq_some_iff.2 h]
      rw [finite?_eq_some_iff.2 ⟨rfl, finite⟩]
      exact congrArg (fun k => some (k, x)) (Fin.ext hj.symm)
    | @unknown before behind _ _ coefficient power =>
      have hbefore : ∀ c ∈ before, decide (c ≠ 'x') = true := fun c hc =>
        decide_eq_true fun h => coefficient.not_mem (c := 'x') rfl (h ▸ hc)
      have hdrop : (before ++ 'x' :: behind).dropWhile (decide <| · ≠ 'x') = 'x' :: behind := by
        rw [List.dropWhile_append_of_pos hbefore]
        rfl
      have htake : (before ++ 'x' :: behind).takeWhile (decide <| · ≠ 'x') = before := by
        rw [List.takeWhile_append_of_pos hbefore]
        exact List.append_nil _
      subst hj
      simp only [readTerm?, hdrop, htake, readCoefficient?_eq_some_iff.2 coefficient,
        readPower?_eq_some_iff.2 power]
      rfl

/-! ## Sums -/

/-- The texts of terms behind their signs, with the power and the signed coefficient of each. -/
inductive AreTerms : List Char → List (ℕ × Float) → Prop
  | nil : AreTerms [] []
  | cons {text rest : List Char} {k : ℕ} {x : Float} {ts : List (ℕ × Float)} (sign : Sign)
    (h : IsTerm text k x) (more : AreTerms rest ts) :
    AreTerms (sign.char :: (text ++ rest)) ((k, sign.apply x) :: ts)

/-- The texts of sums: terms behind their signs, of which the first may be left out. -/
inductive IsSum : List Char → List (ℕ × Float) → Prop
  | signed {text : List Char} {ts : List (ℕ × Float)} (h : AreTerms text ts) (ne_nil : text ≠ []) :
    IsSum text ts
  | unsigned {text rest : List Char} {k : ℕ} {x : Float} {ts : List (ℕ × Float)}
    (h : IsTerm text k x) (more : AreTerms rest ts) : IsSum (text ++ rest) ((k, x) :: ts)

theorem IsTerm.ne_nil {text : List Char} {k : ℕ} {x : Float} (h : IsTerm text k x) : text ≠ [] := by
  cases h with
  | constant h _ =>
    cases h with
    | decimal hd => exact hd.ne_nil
    | scaled => simp
  | unknown => simp

/-- A character that is neither of a literal nor of an unknown does not stand in terms. -/
theorem IsTerm.not_mem {text : List Char} {k : ℕ} {x : Float} (h : IsTerm text k x) {c : Char}
    (hc : isLiteralChar c = false ∧ isMark c = false) (hx : c ≠ 'x') (hp : c ≠ '^') : c ∉ text := by
  cases h with
  | constant h _ => exact h.not_mem hc
  | unknown coefficient power =>
    have hbehind : ∀ {behind : List Char} {k : ℕ}, IsPower behind k → c ∉ behind := by
      rintro _ _ (_ | ⟨n, -⟩)
      · simp
      · have hdigit : c.isDigit = false := by
          have := hc.1
          simp only [isLiteralChar, Bool.or_eq_false_iff] at this
          exact this.1
        simp [hp, n.not_mem_digits hdigit]
    simp [coefficient.not_mem hc.1, hx, hbehind power]

theorem IsTerm.all_isUnsigned {text : List Char} {k : ℕ} {x : Float} (h : IsTerm text k x) :
    text.all isUnsigned = true := by
  have hplus : '+' ∉ text := h.not_mem (by decide) (by decide) (by decide)
  have hminus : '-' ∉ text := h.not_mem (by decide) (by decide) (by decide)
  refine List.all_eq_true.2 fun c hc => ?_
  unfold isUnsigned Sign.ofChar?
  split
  · exact absurd hc hplus
  · exact absurd hc hminus
  · rfl

theorem AreTerms.not_mem {text : List Char} {ts : List (ℕ × Float)} (h : AreTerms text ts) {c : Char}
    (hc : isLiteralChar c = false ∧ isMark c = false) (hx : c ≠ 'x') (hp : c ≠ '^')
    (hsign : isUnsigned c = true) : c ∉ text := by
  induction h with
  | nil => simp
  | cons sign h _ ih =>
    have hne : c ≠ sign.char := by
      rintro rfl
      rw [isUnsigned_char] at hsign
      cases hsign
    simp [hne, h.not_mem hc hx hp, ih]

/-- Nor does it stand in sums, unless it is a sign. -/
theorem IsSum.not_mem {text : List Char} {ts : List (ℕ × Float)} (h : IsSum text ts) {c : Char}
    (hc : isLiteralChar c = false ∧ isMark c = false) (hx : c ≠ 'x') (hp : c ≠ '^')
    (hsign : isUnsigned c = true) : c ∉ text := by
  cases h with
  | signed h _ => exact h.not_mem hc hx hp hsign
  | unsigned h more => simp [h.not_mem hc hx hp, more.not_mem hc hx hp hsign]

/-- Behind a term a text ends or goes on with a sign. -/
theorem AreTerms.any_head? {text : List Char} {ts : List (ℕ × Float)} (h : AreTerms text ts) :
    text.head?.any isUnsigned = false := by
  cases h with
  | nil => rfl
  | cons sign _ _ => exact isUnsigned_char sign

/-- A term in front of more terms is a run. -/
theorem IsTerm.pieces_append {text rest : List Char} {k : ℕ} {x : Float} {ts : List (ℕ × Float)}
    (h : IsTerm text k x) (more : AreTerms rest ts) :
    pieces isUnsigned (text ++ rest) = .run text :: pieces isUnsigned rest :=
  pieces_run_append h.ne_nil h.all_isUnsigned more.any_head?

/-- The power and the signed coefficient of a term with its sign. -/
def readSigned? (t : Sign × List Char) : Option (Fin (maxPower + 1) × Float) :=
  (readTerm? t.2).map fun u => (u.1, t.1.apply u.2)

/-- The powers and the signed coefficients of terms with their signs. -/
def readTerms? (ts : List (Sign × List Char)) : Option (List (Fin (maxPower + 1) × Float)) :=
  ts.mapM readSigned?

theorem readTerms?_cons (t : Sign × List Char) (ts : List (Sign × List Char)) :
    readTerms? (t :: ts) = (readSigned? t).bind fun u => (readTerms? ts).map (u :: ·) := by
  rw [readTerms?, List.mapM_cons]
  exact congrArg _ (funext fun u => (Option.map_eq_bind ..).symm)

theorem readTerms?_cons_eq_some_iff {t : Sign × List Char} {ts : List (Sign × List Char)}
    {us : List (Fin (maxPower + 1) × Float)} :
    readTerms? (t :: ts) = some us ↔
      ∃ k x vs, readTerm? t.2 = some (k, x) ∧ readTerms? ts = some vs ∧
        us = (k, t.1.apply x) :: vs := by
  simp only [readTerms?_cons, readSigned?, Option.bind_map, Option.bind_eq_some_iff,
    Function.comp_apply, Option.map_eq_some_iff, Prod.exists]
  constructor
  · rintro ⟨k, x, h, vs, hvs, rfl⟩
    exact ⟨k, x, vs, h, hvs, rfl⟩
  · rintro ⟨k, x, vs, h, hvs, rfl⟩
    exact ⟨k, x, h, vs, hvs, rfl⟩

theorem addSigned?_eq (p : Polynomial) (t : Sign × List Char) :
    addSigned? p t = (readSigned? t).map fun u => p.addTerm u.1 u.2 := by
  unfold addSigned? readSigned?
  cases readTerm? t.2 <;> rfl

/-- Adding signed terms as they are read is reading them all and adding them then. -/
theorem foldlM_addSigned? (p : Polynomial) (ts : List (Sign × List Char)) :
    ts.foldlM addSigned? p = (readTerms? ts).map p.addTerms := by
  induction ts generalizing p with
  | nil => rfl
  | cons t ts ih =>
    rw [List.foldlM_cons, addSigned?_eq, readTerms?_cons]
    cases readSigned? t with
    | none => rfl
    | some u =>
      refine (ih _).trans ?_
      cases readTerms? ts <;> rfl

/-- The first two pieces of signed terms. -/
theorem signedTerms?_eq_some_cons {ps : List Piece} {t : Sign × List Char}
    {ts : List (Sign × List Char)} (h : signedTerms? ps = some (t :: ts)) :
    ∃ c rest, ps = .single c :: .run t.2 :: rest ∧ Sign.ofChar? c = some t.1 ∧
      signedTerms? rest = some ts := by
  unfold signedTerms? at h
  split at h
  · cases h
  · obtain ⟨sign, hsign, h⟩ := Option.bind_eq_some_iff.1 h
    obtain ⟨us, hus, h⟩ := Option.bind_eq_some_iff.1 h
    cases h
    exact ⟨_, _, rfl, hsign, hus⟩
  · cases h

theorem eq_nil_of_signedTerms? {ps : List Piece} (h : signedTerms? ps = some []) : ps = [] := by
  unfold signedTerms? at h
  split at h
  · rfl
  · obtain ⟨sign, -, h⟩ := Option.bind_eq_some_iff.1 h
    obtain ⟨us, -, h⟩ := Option.bind_eq_some_iff.1 h
    cases h
  · cases h

theorem char_eq_of_ofChar? {c : Char} {sign : Sign} (h : Sign.ofChar? c = some sign) :
    c = sign.char := by
  unfold Sign.ofChar? at h
  split at h
  · cases h
    rfl
  · cases h
    rfl
  · cases h

theorem IsTerm.le {text : List Char} {k : ℕ} {x : Float} (h : IsTerm text k x) : k ≤ maxPower := by
  cases h with
  | constant => exact Nat.zero_le _
  | unknown _ power =>
    cases power with
    | absent => exact Nat.succ_pos 5
    | numeral n le => exact le

theorem AreTerms.exists_signedTerms? {text : List Char} {ts : List (ℕ × Float)}
    (h : AreTerms text ts) :
    ∃ us vs, signedTerms? (pieces isUnsigned text) = some us ∧ readTerms? us = some vs ∧
      plainTerms vs = ts := by
  induction h with
  | nil => exact ⟨[], [], rfl, rfl, rfl⟩
  | @cons text rest k x ts sign h more ih =>
    obtain ⟨us, vs, hus, hvs, rfl⟩ := ih
    have hk : k < maxPower + 1 := Nat.lt_succ_of_le h.le
    refine ⟨(sign, text) :: us, (⟨k, hk⟩, sign.apply x) :: vs, ?_, ?_, rfl⟩
    · rw [pieces_cons_single (isUnsigned_char sign), h.pieces_append more, signedTerms?,
        ofChar?_char, hus]
      rfl
    · have hread : readTerm? text = some (⟨k, hk⟩, x) := readTerm?_eq_some_iff.2 h
      exact readTerms?_cons_eq_some_iff.2 ⟨_, _, vs, hread, hvs, rfl⟩

theorem areTerms_of_signedTerms? {text : List Char} {us : List (Sign × List Char)}
    {vs : List (Fin (maxPower + 1) × Float)}
    (hus : signedTerms? (pieces isUnsigned text) = some us) (hvs : readTerms? us = some vs) :
    AreTerms text (plainTerms vs) := by
  induction us generalizing text vs with
  | nil =>
    cases hvs
    have hnil := flatMap_text_pieces isUnsigned text
    rw [eq_nil_of_signedTerms? hus] at hnil
    exact hnil ▸ .nil
  | cons u us ih =>
    obtain ⟨c, rest, hps, hc, hrest⟩ := signedTerms?_eq_some_cons hus
    obtain ⟨ds, rfl, -, hds⟩ := eq_cons_of_pieces_eq_single hps
    obtain ⟨es, rfl, -, -, -, rfl⟩ := eq_append_of_pieces_eq_run hds.symm
    obtain ⟨k, x, ws, hread, hws, rfl⟩ := readTerms?_cons_eq_some_iff.1 hvs
    rw [char_eq_of_ofChar? hc]
    exact .cons u.1 (readTerm?_eq_some_iff.1 hread) (ih hrest hws)

/-- **A sum is split into its terms, and these are read.** -/
theorem isSum_iff {text : List Char} {ts : List (ℕ × Float)} (hne : text ≠ []) :
    IsSum text ts ↔
      ∃ us vs, splitTerms? text = some us ∧ readTerms? us = some vs ∧ plainTerms vs = ts := by
  constructor
  · rintro (⟨h, -⟩ | @⟨text, rest, k, x, ts, h, more⟩)
    · obtain ⟨us, vs, hus, hvs⟩ := h.exists_signedTerms?
      cases h with
      | nil => exact absurd rfl hne
      | cons sign _ _ =>
        have hps := pieces_cons_single (isUnsigned_char sign)
        rw [hps] at hus
        exact ⟨us, vs, (splitTerms?_single (hps _)).trans hus, hvs⟩
    · have hk : k < maxPower + 1 := Nat.lt_succ_of_le h.le
      have hread : readTerm? text = some (⟨k, hk⟩, x) := readTerm?_eq_some_iff.2 h
      obtain ⟨us, vs, hus, hvs, rfl⟩ := more.exists_signedTerms?
      refine ⟨(.plus, text) :: us, (⟨k, hk⟩, x) :: vs, ?_, ?_, rfl⟩
      · rw [splitTerms?_run (h.pieces_append more), hus]
        rfl
      · exact readTerms?_cons_eq_some_iff.2 ⟨_, _, vs, hread, hvs, rfl⟩
  · rintro ⟨us, vs, hus, hvs, rfl⟩
    cases hps : pieces isUnsigned text with
    | nil =>
      have hnil := flatMap_text_pieces isUnsigned text
      rw [hps] at hnil
      exact absurd hnil.symm hne
    | cons p ps =>
      cases p with
      | single c =>
        rw [splitTerms?_single hps, ← hps] at hus
        exact .signed (areTerms_of_signedTerms? hus hvs) hne
      | run t =>
        rw [splitTerms?_run hps] at hus
        obtain ⟨us, hrest, rfl⟩ := Option.map_eq_some_iff.1 hus
        obtain ⟨ds, rfl, -, -, -, rfl⟩ := eq_append_of_pieces_eq_run hps
        obtain ⟨k, x, ws, hread, hws, rfl⟩ := readTerms?_cons_eq_some_iff.1 hvs
        exact .unsigned (readTerm?_eq_some_iff.1 hread) (areTerms_of_signedTerms? hrest hws)

/-! ## Texts -/

/-- The terms that a text states, blanks left out and a star before an unknown as well: parentheses,
slashes and other stars are refused. -/
structure States (text : List Char) (ts : List (ℕ × Float)) : Prop where
  ne_nil : text.filter (!isBlank ·) ≠ []
  not_mem : ∀ c ∈ ['(', ')', '/'], c ∉ text.filter (!isBlank ·)
  no_star : '*' ∉ dropStars (text.filter (!isBlank ·))
  isSum : IsSum (dropStars (text.filter (!isBlank ·))) ts

theorem dropStars_ne_nil {cs : List Char} (h : cs ≠ []) : dropStars cs ≠ [] := by
  unfold dropStars
  split
  · simp
  · simp
  · exact absurd rfl h

/-- Only stars are dropped. -/
theorem mem_dropStars {cs : List Char} {d : Char} (hd : d ≠ '*') (h : d ∈ cs) : d ∈ dropStars cs := by
  fun_induction dropStars cs with
  | case1 rest ih =>
    simp only [List.mem_cons, hd, false_or] at h
    exact List.mem_cons.2 (h.imp_right ih)
  | case2 c rest _ ih => exact List.mem_cons.2 ((List.mem_cons.1 h).imp_right ih)
  | case3 => exact h

theorem IsSum.ne_nil {text : List Char} {ts : List (ℕ × Float)} (h : IsSum text ts) : text ≠ [] := by
  cases h with
  | signed _ ne_nil => exact ne_nil
  | unsigned h _ => exact List.append_ne_nil_of_left_ne_nil h.ne_nil _

/-- No sum has a character in it that is refused. -/
theorem States.of_isSum {text : List Char} {ts : List (ℕ × Float)}
    (h : IsSum (dropStars (text.filter (!isBlank ·))) ts) : States text ts := by
  refine ⟨fun hnil => h.ne_nil (by rw [hnil, dropStars]), fun c hc hmem => ?_,
    h.not_mem (by decide) (by decide) (by decide) rfl, h⟩
  have refused : isLiteralChar c = false ∧ isMark c = false ∧ c ≠ 'x' ∧ c ≠ '^' ∧ c ≠ '*' ∧
      isUnsigned c = true := by
    simp only [List.mem_cons, List.not_mem_nil, or_false] at hc
    obtain rfl | rfl | rfl := hc <;> decide
  obtain ⟨literal, mark, hx, hp, star, hsign⟩ := refused
  exact h.not_mem ⟨literal, mark⟩ hx hp hsign (mem_dropStars star hmem)

/-- What is not refused at once. -/
theorem not_refused_iff {bare side : List Char} :
    ¬(bare = [] ∨ bare.any ("()/".toList.contains ·) = true ∨ side.contains '*' = true) ↔
      bare ≠ [] ∧ (∀ c ∈ ['(', ')', '/'], c ∉ bare) ∧ '*' ∉ side := by
  have refused : "()/".toList = ['(', ')', '/'] := rfl
  have any_iff : ¬bare.any ("()/".toList.contains ·) = true ↔ ∀ c ∈ ['(', ')', '/'], c ∉ bare := by
    simp only [refused, List.any_eq_true, List.contains_iff_mem, not_exists, not_and]
    exact ⟨fun h c hc hcs => h c hcs hc, fun h c hcs hc => h c hc hcs⟩
  rw [not_or, not_or, any_iff, List.contains_iff_mem]

theorem ofText?_eq_some_iff {text : List Char} {p : Polynomial} :
    ofText? text = some p ↔ ∃ vs, States text (plainTerms vs) ∧ p = zero.addTerms vs := by
  unfold ofText?
  dsimp only
  constructor
  · intro h
    split at h
    · cases h
    · rename_i guard
      obtain ⟨ne_nil, not_mem, no_star⟩ := not_refused_iff.1 guard
      obtain ⟨us, hus, h⟩ := Option.bind_eq_some_iff.1 h
      rw [foldlM_addSigned?] at h
      obtain ⟨vs, hvs, rfl⟩ := Option.map_eq_some_iff.1 h
      exact ⟨vs, ⟨ne_nil, not_mem, no_star,
        (isSum_iff (dropStars_ne_nil ne_nil)).2 ⟨us, vs, hus, hvs, rfl⟩⟩, rfl⟩
  · rintro ⟨vs, ⟨ne_nil, not_mem, no_star, isSum⟩, rfl⟩
    obtain ⟨us, ws, hus, hws, heq⟩ := (isSum_iff (dropStars_ne_nil ne_nil)).1 isSum
    rw [if_neg (not_refused_iff.2 ⟨ne_nil, not_mem, no_star⟩), hus]
    refine (foldlM_addSigned? _ _).trans ?_
    rw [hws, plainTerms_injective heq]
    rfl

/-- Terms that a text states have powers of at most six. -/
theorem States.exists_plainTerms {text : List Char} {ts : List (ℕ × Float)} (h : States text ts) :
    ∃ vs, plainTerms vs = ts := by
  obtain ⟨-, vs, -, -, heq⟩ := (isSum_iff (dropStars_ne_nil h.ne_nil)).1 h.isSum
  exact ⟨vs, heq⟩

/-- What is read is the total of the terms that a text states. -/
theorem ofText?_eq_some_iff_states {text : List Char} {p : Polynomial} :
    ofText? text = some p ↔ ∃ ts, States text ts ∧ p.IsTotal ts := by
  constructor
  · intro h
    obtain ⟨vs, hvs, rfl⟩ := ofText?_eq_some_iff.1 h
    exact ⟨_, hvs, isTotal_addTerms vs⟩
  · rintro ⟨ts, h, total⟩
    obtain ⟨vs, rfl⟩ := h.exists_plainTerms
    exact ofText?_eq_some_iff.2 ⟨vs, h, total.unique (isTotal_addTerms vs) plainTerms_le⟩

/-- **The reader accepts exactly the texts that state terms, and its polynomial is their total.** -/
theorem ofText?_iff_states (text : List Char) :
    ((∃ p, ofText? text = some p) ↔ ∃ ts, States text ts) ∧
      ∀ p, ofText? text = some p ↔ ∃ ts, States text ts ∧ p.IsTotal ts := by
  refine ⟨?_, fun p => ofText?_eq_some_iff_states⟩
  constructor
  · rintro ⟨p, h⟩
    obtain ⟨vs, hvs, -⟩ := ofText?_eq_some_iff.1 h
    exact ⟨_, hvs⟩
  · rintro ⟨ts, h⟩
    obtain ⟨vs, rfl⟩ := h.exists_plainTerms
    exact ⟨_, ofText?_eq_some_iff.2 ⟨vs, h, rfl⟩⟩

end Reckoner
