import Reckoner.Proofs.Wording.Equation

/-!
# Unknowns and words

An `x` is an unknown if it belongs to no word. The passes keep the number of those `x` that have no
small letter from `a` to `z` beside them: nothing that is replaced, left out or put in changes what
stands beside them (`bareUnknowns_applyFrom`, `Thinned.bareUnknowns_eq`,
`bareUnknowns_withoutSigns`). These are the unknowns of the equation (`count_toEquation`). Letters
of other alphabets and letters with accents do not count for the passes, so the number of `x`
without any letter beside them is another one exactly if there is an `x` beside such letters alone.
-/

namespace Reckoner.Wording

open Text Unicode

/-! ## Counting -/

/-- Whether there is a letter on one of two sides. -/
def beside (letter : Char → Bool) (before after : Option Char) : Bool :=
  before.any letter || after.any letter

/-- The number of `x` in a text behind `before` that have no letter directly beside them. -/
def bareUnknowns (letter : Char → Bool) : Option Char → List Char → ℕ
  | _, [] => 0
  | before, c :: cs =>
    (if c = 'x' ∧ beside letter before cs.head? = false then 1 else 0) +
      bareUnknowns letter (some c) cs

section Letter

variable {letter : Char → Bool}

theorem bareUnknowns_cons_of_ne {c : Char} (hc : c ≠ 'x') (b : Option Char) (cs : List Char) :
    bareUnknowns letter b (c :: cs) = bareUnknowns letter (some c) cs := by
  simp [bareUnknowns, hc]

/-- What stands before a text matters for an `x` at its start only. -/
theorem bareUnknowns_congr {b b' : Option Char} {text : List Char}
    (h : text.head? = some 'x' → b.any letter = b'.any letter) :
    bareUnknowns letter b text = bareUnknowns letter b' text := by
  cases text with
  | nil => rfl
  | cons c cs =>
    by_cases hc : c = 'x'
    · subst hc
      rw [bareUnknowns, bareUnknowns, beside, beside, h rfl]
    · rw [bareUnknowns_cons_of_ne hc, bareUnknowns_cons_of_ne hc]

/-- A text is counted in parts if the second one does not start with a letter. -/
theorem bareUnknowns_append {rest : List Char} (h : rest.head?.any letter = false)
    (b : Option Char) (a : List Char) :
    bareUnknowns letter b (a ++ rest) =
      bareUnknowns letter b a + bareUnknowns letter (a.getLast?.or b) rest := by
  induction a generalizing b with
  | nil => simp [bareUnknowns]
  | cons c a ih =>
    have head : beside letter b (a ++ rest).head? = beside letter b a.head? := by
      cases a with
      | nil => simp [beside, h]
      | cons => rfl
    rw [List.cons_append, bareUnknowns, ih, head, bareUnknowns, getLast?_cons_or, Nat.add_assoc]

/-- A part without an `x` does not count. -/
theorem bareUnknowns_append_of_not_mem {a : List Char} (h : 'x' ∉ a) (b : Option Char)
    (rest : List Char) :
    bareUnknowns letter b (a ++ rest) = bareUnknowns letter (a.getLast?.or b) rest := by
  induction a generalizing b with
  | nil => rfl
  | cons c a ih =>
    simp only [List.mem_cons, not_or] at h
    rw [List.cons_append, bareUnknowns_cons_of_ne (Ne.symm h.1), ih h.2, getLast?_cons_or]

theorem bareUnknowns_of_not_mem {a : List Char} (h : 'x' ∉ a) (b : Option Char) :
    bareUnknowns letter b a = 0 := by
  have counted : bareUnknowns letter b (a ++ []) = 0 := bareUnknowns_append_of_not_mem h b []
  rwa [List.append_nil] at counted

end Letter

/-! ## More letters -/

section Wider

variable {p q : Char → Bool} (wider : ∀ c, p c = true → q c = true)

include wider

theorem beside_mono {b a : Option Char} (h : beside p b a = true) : beside q b a = true := by
  simp only [beside, Bool.or_eq_true, Option.any_eq_true] at h ⊢
  rcases h with ⟨c, hc, h⟩ | ⟨c, hc, h⟩
  · exact .inl ⟨c, hc, wider c h⟩
  · exact .inr ⟨c, hc, wider c h⟩

/-- At one place a wider class of letters leaves out no less. -/
theorem bare_mono (c : Char) (b a : Option Char) :
    (if c = 'x' ∧ beside q b a = false then 1 else 0) ≤
      if c = 'x' ∧ beside p b a = false then 1 else 0 := by
  by_cases hp : beside p b a = true
  · simp [hp, beside_mono wider hp]
  · rw [Bool.not_eq_true] at hp
    by_cases hc : c = 'x' <;> simp [hp, hc]
    split <;> simp

/-- The more letters there are, the fewer `x` have none beside them. -/
theorem bareUnknowns_anti (b : Option Char) (text : List Char) :
    bareUnknowns q b text ≤ bareUnknowns p b text := by
  induction text generalizing b with
  | nil => rfl
  | cons c cs ih => exact Nat.add_le_add (bare_mono wider c b cs.head?) (ih (some c))

/-- Two classes of letters give one number if each `x` beside the wider one is beside the other. -/
theorem bareUnknowns_eq_iff (b : Option Char) (text : List Char) :
    bareUnknowns p b text = bareUnknowns q b text ↔
      ∀ pre post, text = pre ++ 'x' :: post →
        beside q (pre.getLast?.or b) post.head? = true →
          beside p (pre.getLast?.or b) post.head? = true := by
  induction text generalizing b with
  | nil => simp [bareUnknowns]
  | cons c cs ih =>
    have here := bare_mono wider c b cs.head?
    have rest := bareUnknowns_anti wider (some c) cs
    rw [bareUnknowns, bareUnknowns]
    constructor
    · intro h pre post htext hq
      cases pre with
      | nil =>
        obtain ⟨rfl, rfl⟩ := List.cons_eq_cons.1 htext
        have hq : beside q b cs.head? = true := hq
        by_contra hp
        have hp : beside p b cs.head? = false := Bool.eq_false_iff.2 hp
        simp only [hp, hq, and_self, Bool.true_eq_false, and_false, if_true, if_false] at h
        omega
      | cons d pre =>
        cases htext
        rw [getLast?_cons_or] at hq ⊢
        exact (ih (some c)).1 (by omega) pre post rfl hq
    · intro h
      have tail := (ih (some c)).2 fun pre post htext => by
        rw [← getLast?_cons_or]
        exact h (c :: pre) post (by rw [htext, List.cons_append])
      rw [tail]
      by_cases hc : c = 'x'
      · subst hc
        have start : beside q b cs.head? = true → beside p b cs.head? = true := h [] cs rfl
        cases hq : beside q b cs.head? with
        | true => simp [start hq]
        | false =>
          have hp : beside p b cs.head? = false :=
            Bool.eq_false_iff.2 fun hp => by simp [beside_mono wider hp] at hq
          simp [hp]
      · simp [hc]

end Wider

/-! ## What is replaced -/

/-- Only one letter can stand alone in a word. -/
theorem bareUnknowns_word {w : List Char} (hw : w.all Char.isLower = true) (hx : w ≠ ['x'])
    (b : Option Char) : bareUnknowns Char.isLower b w = 0 := by
  have inside {w : List Char} (hw : w.all Char.isLower = true) {b : Option Char}
      (hb : b.any Char.isLower = true) : bareUnknowns Char.isLower b w = 0 := by
    induction w generalizing b with
    | nil => rfl
    | cons c w ih =>
      simp only [List.all_cons, Bool.and_eq_true] at hw
      simp [bareUnknowns, beside, hb, ih hw.2 (b := some c) hw.1]
  match w with
  | [] => rfl
  | [c] =>
    have hc : c ≠ 'x' := by simpa using hx
    rw [bareUnknowns_cons_of_ne hc, bareUnknowns]
  | c :: d :: w =>
    simp only [List.all_cons, Bool.and_eq_true] at hw
    have next : beside Char.isLower b (some d) = true := by simp [beside, hw.2.1]
    have tail : bareUnknowns Char.isLower (some c) (d :: w) = 0 :=
      inside (by simp [hw.2]) (b := some c) hw.1
    rw [bareUnknowns, tail, List.head?_cons]
    simp [next]

/-- The text of a phrase has no unknown in it, unless one of its words is an `x`. -/
theorem bareUnknowns_spelled {ws : List (List Char)} {a : List Char} (h : Spelled ws a)
    (hws : ∀ w ∈ ws, w.all Char.isLower = true) (hx : ['x'] ∉ ws) (b : Option Char) :
    bareUnknowns Char.isLower b a = 0 := by
  induction h generalizing b with
  | last w =>
    refine bareUnknowns_word (hws w List.mem_cons_self) ?_ b
    rintro rfl
    exact hx List.mem_cons_self
  | @cons w gap text ws ne_nil blank h ih =>
    simp only [List.mem_cons, not_or] at hx
    have ends : (gap ++ text).head?.any Char.isLower = false :=
      head?_any_isLower (goesOn_of_blank ne_nil blank)
    have no_x : 'x' ∉ gap := fun hmem =>
      absurd (List.all_eq_true.1 blank 'x' hmem) (by decide)
    rw [bareUnknowns_append ends, bareUnknowns_append_of_not_mem no_x,
      bareUnknowns_word (hws w List.mem_cons_self) (Ne.symm hx.1),
      ih (fun v hv => hws v (List.mem_cons_of_mem _ hv)) hx.2]

/-- Neither what is replaced nor what is put in its place has an unknown in it. -/
theorem exists_of_percentEquationRule {b : Option Char} {text : List Char} {hit : Hit}
    (h : percentEquationRule b text = some hit) :
    ∃ a rest, text = a ++ rest ∧ a ≠ [] ∧ hit.length = a.length ∧ goesOn rest = false ∧
      'x' ∉ hit.replacement ∧ ∀ b, bareUnknowns Char.isLower b a = 0 := by
  have no_letter : 'x' ∉ hit.replacement := fun hmem =>
    absurd (isTidy_percentEquationRule.no_letter h 'x' hmem) (by decide)
  obtain h | ⟨-, h⟩ := Option.or_eq_some_iff.1 h
  · obtain ⟨gap, rest, rfl, blank, hrest, rfl⟩ := percentOfRule_eq_some_iff.1 h
    have no_x : 'x' ∉ '%' :: (gap ++ "of".toList) := by
      intro hmem
      simp only [List.mem_cons, List.mem_append] at hmem
      rcases hmem with hmem | hmem | hmem
      · cases hmem
      · exact absurd (List.all_eq_true.1 blank 'x' hmem) (by decide)
      · exact absurd hmem (by decide)
    exact ⟨'%' :: (gap ++ "of".toList), rest, by simp, by simp, by simp, hrest, no_letter,
      bareUnknowns_of_not_mem no_x⟩
  · obtain ⟨p, hp, c, a, rest, rfl, ha, hrest, rfl⟩ :=
      exists_spelled_of_vocabularyRule fits_equation h
    have no_unknown : ∀ p ∈ equationVocabulary, ['x'] ∉ p.spoken := by decide
    exact ⟨c :: a, rest, rfl, by simp, rfl, hrest, no_letter,
      bareUnknowns_spelled ha (fits_equation p hp).isPhrase.all_isLower (no_unknown p hp)⟩

/-- **Replacing words keeps the number of unknowns.** What stands before the text may have been
replaced, too, if no word goes on behind it. The induction is on the length of the text. -/
theorem bareUnknowns_applyFrom {b prev : Option Char} {text : List Char}
    (hb : prev = b ∨ goesOn text = false) :
    bareUnknowns Char.isLower prev (percentEquationRule.applyFrom b 0 text) =
      bareUnknowns Char.isLower b text := by
  induction hn : text.length using Nat.strong_induction_on generalizing b prev text with
  | _ n ih =>
    subst hn
    cases text with
    | nil => rfl
    | cons c cs =>
      cases h : percentEquationRule b (c :: cs) with
      | some hit =>
        obtain ⟨a, rest, htext, ne_nil, hlength, hrest, no_x, none_in⟩ :=
          exists_of_percentEquationRule h
        have shorter : rest.length < (c :: cs).length := by
          have := List.length_pos_iff.2 ne_nil
          rw [htext, List.length_append]
          omega
        rw [htext] at h ⊢
        rw [Rule.applyFrom_take h hlength ne_nil, bareUnknowns_append_of_not_mem no_x,
          ih _ shorter (.inr hrest) rfl, bareUnknowns_append (head?_any_isLower hrest), none_in,
          Nat.zero_add]
      | none =>
        rw [Rule.applyFrom_copy h, bareUnknowns, bareUnknowns,
          ih cs.length (by simp) (.inl rfl) rfl]
        by_cases hc : c = 'x'
        · subst hc
          have word : isWord 'x' = true := isWord_of_isLower rfl
          have inside : opensWord (some 'x') = false := by simp [opensWord, word]
          have hb : prev = b := hb.resolve_right (by simp [goesOn, word])
          rw [hb, isTidy_percentEquationRule.head?_applyFrom_inside inside]
        · simp [hc]

/-! ## Thousands and typographic signs -/

/-- Commas between digits do not count. -/
theorem Thinned.bareUnknowns_eq {b : Option Char} {text thin : List Char}
    (h : Thinned b text thin) :
    bareUnknowns Char.isLower b text = bareUnknowns Char.isLower b thin := by
  induction h with
  | nil => rfl
  | @keep b c text thin h ih =>
    rw [bareUnknowns, bareUnknowns, ih]
    by_cases hc : c = 'x'
    · subst hc
      have no_digit : (some 'x').any isDigit = false := by decide
      rw [h.head?_eq no_digit]
    · simp [hc]
  | @drop d e text thin before behind h ih =>
    have he : e ≠ 'x' := ne_of_isDigit behind (by decide)
    rw [bareUnknowns_cons_of_ne (by decide), bareUnknowns_cons_of_ne he,
      bareUnknowns_cons_of_ne he, ih]

/-- A typographic sign and what stands for it are no letters. -/
theorem withoutSigns_singleton (c : Char) :
    withoutSigns [c] = [c] ∨ (c.isLower = false ∧ withoutSigns [c] ≠ [] ∧
      ∀ d ∈ withoutSigns [c], d.isLower = false) := by
  by_cases hc : c ∈ ['×', '÷', '−', '²', '³']
  · right
    have checked : ['×', '÷', '−', '²', '³'].all (fun c => !c.isLower &&
        !(withoutSigns [c]).isEmpty && (withoutSigns [c]).all (!·.isLower)) = true := by decide
    have h := List.all_eq_true.1 checked c hc
    simp only [Bool.and_eq_true, Bool.not_eq_true', List.isEmpty_eq_false_iff,
      List.all_eq_true] at h
    exact ⟨h.1.1, h.1.2, h.2⟩
  · exact .inl (withoutSigns_singleton_of_not_mem hc)

theorem head?_withoutSigns (text : List Char) :
    (withoutSigns text).head?.any Char.isLower = text.head?.any Char.isLower := by
  cases text with
  | nil => rfl
  | cons c cs =>
    rw [← List.singleton_append, withoutSigns_append]
    obtain stays | ⟨hc, ne_nil, signs⟩ := withoutSigns_singleton c
    · rw [stays]
      rfl
    · obtain ⟨d, ds, hds⟩ := List.exists_cons_of_ne_nil ne_nil
      have hd : d.isLower = false := signs d (by simp [hds])
      simp [hds, hc, hd]

/-- Typographic signs do not count. -/
theorem bareUnknowns_withoutSigns (b : Option Char) (text : List Char) :
    bareUnknowns Char.isLower b (withoutSigns text) = bareUnknowns Char.isLower b text := by
  induction text generalizing b with
  | nil => rfl
  | cons c cs ih =>
    rw [← List.singleton_append, withoutSigns_append]
    obtain stays | ⟨hc, ne_nil, signs⟩ := withoutSigns_singleton c
    · have side : beside Char.isLower b (withoutSigns cs).head? =
          beside Char.isLower b cs.head? := by
        rw [beside, beside, head?_withoutSigns]
      rw [stays, List.singleton_append, List.singleton_append, bareUnknowns, bareUnknowns, ih, side]
    · have no_x : 'x' ∉ withoutSigns [c] := fun hmem => absurd (signs 'x' hmem) (by decide)
      have hx : c ≠ 'x' := by
        rintro rfl
        cases hc
      rw [bareUnknowns_append_of_not_mem no_x, ih, List.singleton_append,
        bareUnknowns_cons_of_ne hx]
      refine bareUnknowns_congr fun _ => ?_
      rw [List.getLast?_eq_some_getLast ne_nil, Option.some_or]
      simp [signs _ (List.getLast_mem ne_nil), hc]

/-! ## The unknowns of an equation -/

theorem count_dropSpelledX (b : Option Char) (text : List Char) :
    (dropSpelledX b text).count 'x' = bareUnknowns Char.isLower b text := by
  induction text generalizing b with
  | nil => rfl
  | cons c cs ih =>
    rw [dropSpelledX, bareUnknowns, ← ih (some c), ← beside]
    by_cases hc : c = 'x'
    · cases beside Char.isLower b cs.head? <;> simp [hc, Nat.add_comm]
    · simp [hc]

/-- The `x` of an equation are those of the text that have no small letter beside them. -/
theorem count_unknowns (text : List Char) :
    (toEquation text).count 'x' = bareUnknowns Char.isLower none (text.flatMap lower) := by
  have kept : isEquationChar 'x' = true := by decide
  rw [toEquation_eq_filter, List.count_filter kept, count_dropSpelledX, Rule.apply,
    bareUnknowns_applyFrom (.inl rfl),
    dropThousands_congr (fun _ _ h => h.bareUnknowns_eq), bareUnknowns_withoutSigns]

/-- **What becomes an unknown.** Of the small letters of a text exactly those `x` stay that have
none of the letters from `a` to `z` beside them, among them all that have no letter of any kind
beside them; no other one stays exactly if each `x` beside a letter is beside one from `a` to
`z`. -/
theorem count_toEquation (text : List Char) :
    (toEquation text).count 'x' = bareUnknowns Char.isLower none (text.flatMap lower) ∧
      bareUnknowns isAlphabetic none (text.flatMap lower) ≤ (toEquation text).count 'x' ∧
      ((toEquation text).count 'x' = bareUnknowns isAlphabetic none (text.flatMap lower) ↔
        ∀ pre post, text.flatMap lower = pre ++ 'x' :: post →
          beside isAlphabetic pre.getLast? post.head? = true →
            beside Char.isLower pre.getLast? post.head? = true) := by
  have count := count_unknowns text
  have wider (c : Char) : c.isLower = true → isAlphabetic c = true := isAlphabetic_of_isLower
  refine ⟨count, count ▸ bareUnknowns_anti wider none _, ?_⟩
  rw [count, bareUnknowns_eq_iff wider]
  simp only [Option.or_none]

/-- In `éxécute 2x = 4` the first `x` is part of a word and stays all the same. -/
theorem count_toEquation_accented :
    (toEquation "éxécute 2x = 4".toList).count 'x' ≠
      bareUnknowns isAlphabetic none ("éxécute 2x = 4".toList.flatMap lower) := by
  rw [count_unknowns]
  decide +kernel

end Reckoner.Wording
