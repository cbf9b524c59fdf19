import Reckoner.Proofs.Wording.Reading

/-!
# The calculation that a text words

The reading of a text does not see the commas between digits that the first pass leaves out
(`Thinned.reading_eq`), and the last pass touches only blanks (`filter_squeeze`). So the calculation
that is made of a text is its reading (`toExpression_reading`).
-/

namespace Reckoner.Wording

open Text Unicode

/-! ## Commas between digits -/

/-- Texts behind which the same is read. -/
structure AlikeBefore (before before' : List Char) : Prop where
  head? : before.head? = before'.head?
  any : before.any (!isBlank ·) = before'.any (!isBlank ·)
  percent : (before.dropWhile isBlank).head? = (before'.dropWhile isBlank).head?

theorem AlikeBefore.cons {before before' : List Char} (h : AlikeBefore before before') (c : Char) :
    AlikeBefore (c :: before) (c :: before') := by
  refine ⟨rfl, by rw [List.any_cons, List.any_cons, h.any], ?_⟩
  cases hc : isBlank c with
  | true => simpa [hc] using h.percent
  | false => simp [hc]

theorem AlikeBefore.append {before before' : List Char} (h : AlikeBefore before before')
    (a : List Char) : AlikeBefore (a ++ before) (a ++ before') := by
  induction a with
  | nil => exact h
  | cons c a ih => exact ih.cons c

namespace Thinned

variable {b : Option Char} {text thin : List Char}

theorem vocabularyRule_eq {table : List Phrase} (fits : ∀ p ∈ table ++ numeralPhrases, p.Fits)
    (h : Thinned b text thin) (before : Option Char) :
    vocabularyRule table before text = vocabularyRule table before thin :=
  vocabularyRule_congr fits rfl fun _ ha hlast => h.exists_append_iff ha hlast

theorem leadingWord_of_iff (h : Thinned b text thin) :
    leadingWord text = "of".toList ↔ leadingWord thin = "of".toList := by
  have of_word : "of".toList.all isWord = true := by decide
  rw [leadingWord_eq_iff of_word, leadingWord_eq_iff of_word]
  have letters : "of".toList.all Char.isLower = true := by decide
  exact h.exists_append_iff (fun c hc => .inl (List.all_eq_true.1 letters c hc)) (by decide)

theorem signAt_eq {before before' : List Char} {c : Char} (hbefore : AlikeBefore before before')
    (h : Thinned (some c) text thin) : signAt before c text = signAt before' c thin := by
  have word : leadingWord (c :: text) = "of".toList ↔ leadingWord (c :: thin) = "of".toList :=
    (@Thinned.keep none c text thin h).leadingWord_of_iff
  simp only [signAt, hbefore.head?, hbefore.any, hbefore.percent, word, h.any_eq]
  by_cases hx : c = 'x'
  · subst hx
    have no_digit : (some 'x').any isDigit = false := by decide
    rw [h.head?_eq no_digit]
  · simp only [hx, false_and]

theorem contribution_eq {before before' : List Char} {c : Char}
    (hbefore : AlikeBefore before before') (h : Thinned (some c) text thin) :
    contribution before c text = contribution before' c thin := by
  have place : Thinned none (c :: text) (c :: thin) := .keep h
  rw [Wording.contribution_eq, Wording.contribution_eq, place.vocabularyRule_eq fits_expression, hbefore.head?,
    h.signAt_eq hbefore]

end Thinned

/-- What is taken behind the first character of a place are letters and blanks. -/
theorem exists_contribution_length (before : List Char) (c : Char) (after : List Char) :
    ∃ a rest, after = a ++ rest ∧ (contribution before c after).length = a.length + 1 ∧
      ∀ d ∈ a, d.isLower = true ∨ isBlank d = true := by
  rw [contribution_eq]
  cases h : vocabularyRule phrases before.head? (c :: after) with
  | some hit =>
    obtain ⟨p, hp, d, a, rest, htext, ha, -, rfl⟩ := exists_spelled_of_vocabularyRule fits_expression h
    cases htext
    exact ⟨a, rest, rfl, rfl, fun e he => ha.isLower_or_isBlank
      (fits_expression p hp).isPhrase.all_isLower e (List.mem_cons_of_mem _ he)⟩
  | none =>
    simp only [Option.map_none, Option.getD_none, signAt]
    split
    · rename_i word
      obtain ⟨rest, htext, -⟩ := (leadingWord_eq_iff (by decide)).1 word.2
      cases htext
      exact ⟨['f'], rest, rfl, rfl, by simp⟩
    · split <;> exact ⟨[], after, rfl, rfl, by simp⟩

/-- A comma says nothing. -/
theorem contribution_comma (before after : List Char) :
    contribution before ',' after = ⟨1, []⟩ := by
  have comma : isWord ',' = false := by decide
  rw [contribution_of_none (vocabularyRule_eq_none fits_expression rfl)]
  simp [signAt, leadingWord_of_not_isWord _ comma, isExpressionChar]

/-- A digit of any script starts no word and says at most itself. -/
theorem contribution_of_isDigit {c : Char} (hc : isDigit c = true) (before after : List Char) :
    contribution before c after = ⟨1, if isExpressionChar c then [c] else []⟩ := by
  have hlower := isLower_eq_false_of_isDigit hc
  have word : leadingWord (c :: after) ≠ "of".toList :=
    leadingWord_ne (by decide) (by decide) hlower
  have hx : c ≠ 'x' := by
    rintro rfl
    cases hlower
  rw [contribution_of_none (vocabularyRule_eq_none fits_expression hlower), signAt, if_neg fun h => word h.2,
    if_neg fun h => hx h.1]

/-- **Commas between digits are not read.** The induction is on the length of the text. -/
theorem Thinned.reading_eq {before before' text thin : List Char}
    (h : Thinned before.head? text thin) (hbefore : AlikeBefore before before') :
    reading before 0 text = reading before' 0 thin := by
  induction hn : text.length using Nat.strong_induction_on generalizing before before' text thin with
  | _ n ih =>
    subst hn
    generalize hb : before.head? = b at h
    cases h with
    | nil => rfl
    | @keep _ c text thin h =>
      obtain ⟨a, rest, rfl, hlength, ha⟩ := exists_contribution_length before c text
      have same := h.contribution_eq hbefore
      obtain ⟨more, rfl, hmore⟩ := h.append_left ha
      have shorter : rest.length < (c :: (a ++ rest)).length := by
        rw [List.length_cons, List.length_append]
        omega
      have hrest : Thinned (a.reverse ++ c :: before).head? rest more := by simpa using hmore
      rw [reading_cons rfl hlength, reading_cons same.symm hlength,
        ih _ shorter hrest ((hbefore.cons c).append a.reverse) rfl]
    | @drop d e text thin digit behind h =>
      have solid : isBlank e = false := isBlank_eq_false_of_isWord (isWord_of_isDigit behind)
      have alike : AlikeBefore (e :: ',' :: before) (e :: before') :=
        ⟨rfl, by simp [solid], by simp [solid]⟩
      have shorter : text.length < (',' :: e :: text).length := by
        rw [List.length_cons, List.length_cons]
        omega
      have rest := @ih _ shorter (e :: ',' :: before) (e :: before') text thin h alike rfl
      rw [reading_single (contribution_comma _ _), reading_single (contribution_of_isDigit behind _ _),
        reading_single (contribution_of_isDigit behind _ _), rest, List.nil_append]

/-! ## Spaces -/

theorem filter_squeeze (started gap : Bool) (text : List Char) :
    (squeeze started gap text).filter (!isBlank ·) = text.filter (!isBlank ·) := by
  induction text generalizing started gap with
  | nil => rfl
  | cons c text ih =>
    have space : isBlank ' ' = true := by decide
    rw [squeeze]
    cases hc : isBlank c with
    | true => simp [hc, ih]
    | false => cases gap <;> simp [hc, space, ih]

/-- The blanks that are written are spaces. -/
theorem eq_space_of_mem_squeeze {started gap : Bool} {text : List Char} {c : Char}
    (hmem : c ∈ squeeze started gap text) (hc : isBlank c = true) : c = ' ' := by
  induction text generalizing started gap with
  | nil => cases hmem
  | cons d text ih =>
    rw [squeeze] at hmem
    split at hmem
    · exact ih hmem
    · rename_i hd
      have hne : c ≠ d := by
        rintro rfl
        exact hd hc
      split at hmem
      · obtain hspace | hmem := List.mem_cons.1 hmem
        · exact hspace
        · exact ih ((List.mem_cons.1 hmem).resolve_left hne)
      · exact ih ((List.mem_cons.1 hmem).resolve_left hne)

theorem head?_squeeze (text : List Char) :
    (squeeze false false text).head?.any isBlank = false := by
  induction text with
  | nil => rfl
  | cons c text ih =>
    rw [squeeze]
    cases hc : isBlank c with
    | true => simpa using ih
    | false => simpa using hc

theorem getLast?_squeeze (started gap : Bool) (text : List Char) :
    (squeeze started gap text).getLast?.any isBlank = false := by
  induction text generalizing started gap with
  | nil => rfl
  | cons c text ih =>
    rw [squeeze]
    cases hc : isBlank c with
    | true => simpa using ih _ _
    | false =>
      have last : (c :: squeeze true false text).getLast?.any isBlank = false := by
        have := ih true false
        cases h : (squeeze true false text).getLast? with
        | none => simp [List.getLast?_cons, h, hc]
        | some d =>
          rw [h] at this
          simpa [List.getLast?_cons, h] using this
      cases gap with
      | true => simpa [List.getLast?_cons] using last
      | false => simpa using last

theorem not_spaces_infix_squeeze (started gap : Bool) (text : List Char) :
    ¬[' ', ' '] <:+: squeeze started gap text := by
  induction text generalizing started gap with
  | nil => simp [squeeze]
  | cons c text ih =>
    rw [squeeze]
    cases hc : isBlank c with
    | true => simpa using ih _ _
    | false =>
      have hne : ' ' ≠ c := by
        rintro rfl
        exact absurd hc (by decide)
      cases gap <;> simp [List.infix_cons_iff, hne, ih]

/-- **The calculation is the reading of its text**: the parts of the one are those of the other, and
nothing but single spaces stands between them. -/
theorem toExpression_reading (text : List Char) :
    (toExpression text).filter (!isBlank ·) = reading [] 0 (plain text) ∧
    (∀ c ∈ toExpression text, isBlank c = true → c = ' ') ∧
    (toExpression text).head? ≠ some ' ' ∧ (toExpression text).getLast? ≠ some ' ' ∧
    ¬[' ', ' '] <:+: toExpression text := by
  have no_space {c : Option Char} (h : c.any isBlank = false) : c ≠ some ' ' := by
    rintro rfl
    exact absurd h (by decide)
  refine ⟨?_, fun c => eq_space_of_mem_squeeze, no_space (head?_squeeze _),
    no_space (getLast?_squeeze _ _ _), not_spaces_infix_squeeze _ _ _⟩
  have passes : (toExpression text).filter (!isBlank ·) = passed none [] (dropThousands (plain text)) := by
    rw [toExpression, filter_squeeze, List.filter_filter, applyNumerals_applyPhrases]
    refine List.filter_congr fun c _ => ?_
    cases hc : isExpressionChar c with
    | true => simp [isBlank_eq_false_of_isExpressionChar hc]
    | false => simp
  have one_reading (text : List Char) : passed none [] text = reading [] 0 text :=
    passed_eq_reading (.inl rfl) (fun h => by cases h)
  rw [passes, one_reading]
  exact dropThousands_congr (fun _ _ h => @Thinned.reading_eq [] [] _ _ h ⟨rfl, rfl, rfl⟩) _

example : reading [] 0 "20% of six x 1,000 percent of two".toList = "20%*6*1000%*2".toList := by
  decide +kernel

end Reckoner.Wording
