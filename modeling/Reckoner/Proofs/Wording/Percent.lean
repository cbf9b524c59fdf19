import Reckoner.Proofs.Wording.Parts

/-!
# Percent signs in equations

A percent sign behind a number can be spelled in four ways (`PercentAt`). The passes over words read
each of them as signs that are left out afterwards, but for the star of those that end in `of`
(`PercentAt.isReadAs`). So a text is answered as if it had no percent sign there
(`answerAlgebra_percent`), and hence as if the number were its hundredth part only where that makes
no difference.
-/

namespace Reckoner

namespace Wording

open Decimal Text Unicode

/-- The word `of` follows, behind blanks. -/
def OfFollows (text : List Char) : Prop :=
  ∃ gap rest, text = gap ++ ("of".toList ++ rest) ∧ gap.all isBlank = true ∧ goesOn rest = false

/-- The spellings of a percent sign in front of a text, and whether it is a factor of what follows.
A spelling ends where its last word does, and the word `of` behind it is part of it. -/
inductive PercentAt : Bool → List Char → List Char → Prop
  | sign {rest : List Char} (alone : ¬OfFollows rest) : PercentAt false ['%'] rest
  | signOf {gap rest : List Char} (blank : gap.all isBlank = true) (ends : goesOn rest = false) :
    PercentAt true ('%' :: (gap ++ "of".toList)) rest
  | word {gap rest : List Char} (ne_nil : gap ≠ []) (blank : gap.all isBlank = true)
    (alone : ¬OfFollows rest) (ends : goesOn rest = false) :
    PercentAt false (gap ++ "percent".toList) rest
  | wordOf {gap more rest : List Char} (ne_nil : gap ≠ []) (blank : gap.all isBlank = true)
    (more_ne_nil : more ≠ []) (more_blank : more.all isBlank = true) (ends : goesOn rest = false) :
    PercentAt true (gap ++ ("percent".toList ++ (more ++ "of".toList))) rest

/-- The star of a factor. -/
def star (factor : Bool) : List Char := if factor then ['*'] else []

/-! ## The spellings are left out -/

theorem percentOfRule_eq_none_iff {b : Option Char} {text : List Char} :
    percentOfRule b ('%' :: text) = none ↔ ¬OfFollows text := by
  rw [Option.eq_none_iff_forall_ne_some]
  constructor
  · rintro h ⟨gap, rest, rfl, blank, hrest⟩
    exact h _ (percentOfRule_eq_some_iff.2 ⟨gap, rest, rfl, blank, hrest, rfl⟩)
  · intro h hit hhit
    obtain ⟨gap, rest, htext, blank, hrest, -⟩ := percentOfRule_eq_some_iff.1 hhit
    exact h ⟨gap, rest, (List.cons_eq_cons.1 htext).2, blank, hrest⟩

/-- The first phrases with the word `percent`: the longer one goes first. -/
theorem equationRule_percent {b : Option Char} {text : List Char} (hb : opensWord b = true)
    (word : leadingWord text = "percent".toList) :
    equationRule b text =
      (phraseRule ["percent".toList, "of".toList] " % * ".toList b text).or
        (some ⟨7, " % ".toList⟩) := by
  obtain ⟨start, rest, table, heads⟩ : ∃ start rest, equationVocabulary =
      start ++ [⟨["percent", "of"], " % * "⟩, ⟨["negative"], " - "⟩, ⟨["percent"], " % "⟩] ++ rest ∧
        ∀ p ∈ start ++ [⟨["negative"], " - "⟩], p.spoken.head? ≠ some "percent".toList :=
    ⟨equationPhrases ++ phrases.take 5, phrases.drop 8 ++ numeralPhrases, rfl, by decide⟩
  have others : ∀ p ∈ start ++ [⟨["negative"], " - "⟩], p.rule b text = none := fun p hp =>
    (fits_equation p (by rw [table]; simp at hp ⊢; tauto)).rule_eq_none (heads p hp) word
  have short : Phrase.rule ⟨["percent"], " % "⟩ b text = some ⟨7, " % ".toList⟩ := by
    have taken : wordsLength ["percent".toList] text = some 7 := if_pos word
    rw [Phrase.rule, phraseRule, if_pos hb]
    exact congrArg (Option.map _) taken
  have before : firstOf (start.map Phrase.rule) b text = none := by
    refine firstOf_eq_none fun r hr => ?_
    obtain ⟨p, hp, rfl⟩ := List.mem_map.1 hr
    exact others p (List.mem_append_left _ hp)
  have between : Phrase.rule ⟨["negative"], " - "⟩ b text = none :=
    others _ (List.mem_append_right _ List.mem_cons_self)
  have whole : equationRule = firstOf (equationVocabulary.map Phrase.rule) := rfl
  rw [whole, table, List.map_append, List.map_append, firstOf_append, firstOf_append, Rule.orElse,
    Rule.orElse, before, Option.none_or]
  simp only [List.map_cons, List.map_nil, firstOf, Rule.orElse, between, short, Option.none_or,
    Option.some_or, Option.or_assoc]
  rfl

/-- **A percent sign is left out** in whatever spelling, and only the star of a factor stays. -/
theorem PercentAt.isReadAs {factor : Bool} {text rest : List Char}
    (h : PercentAt factor text rest) : IsReadAs (star factor) text rest := by
  have phrase : IsPhrase ["percent".toList, "of".toList] := by decide
  have percent_word : "percent".toList.all isWord = true := by decide
  cases h with
  | sign alone =>
    refine isReadAs_singleton (fun b => ?_) (by decide)
    rw [percentEquationRule, Rule.orElse, percentOfRule_eq_none_iff.2 alone, Option.none_or]
    exact vocabularyRule_eq_none fits_equation rfl
  | @signOf gap _ blank ends =>
    have symbols : IsSymbols "% *".toList := by decide
    refine ⟨"% *".toList, fun b => ?_, by decide, symbols.no_letter, by decide⟩
    have taken : percentEquationRule b ('%' :: (gap ++ "of".toList) ++ rest) =
        some ⟨gap.length + 3, "% *".toList⟩ := by
      rw [percentEquationRule, Rule.orElse,
        percentOfRule_eq_some_iff.2 ⟨gap, rest, by simp, blank, ends, rfl⟩, Option.some_or]
    rw [Rule.applyFrom_take taken (by simp) (by simp),
      applyFrom_percentEquationRule _ none (.inr ends)]
  | @word gap _ ne_nil blank alone ends =>
    have leading := (leadingWord_eq_iff percent_word).2 ⟨rest, rfl, ends⟩
    have hit (b : Option Char) (hb : opensWord b = true) :
        equationRule b ("percent".toList ++ rest) =
          some ⟨"percent".toList.length, " % ".toList⟩ := by
      have no_of : phraseRule ["percent".toList, "of".toList] " % * ".toList b
          ("percent".toList ++ rest) = none := by
        refine Option.eq_none_iff_forall_ne_some.2 fun hit hhit => alone ?_
        obtain ⟨-, a, more, htext, ha, hmore, -⟩ := (phraseRule_eq_some_iff phrase).1 hhit
        cases ha with
        | @cons _ space _ _ _ blank hof =>
          cases hof with
          | last =>
            rw [List.append_assoc, List.append_assoc] at htext
            exact ⟨space, more, List.append_cancel_left htext, blank, hmore⟩
          | cons _ _ h => cases h
      rw [equationRule_percent hb leading, no_of, Option.none_or]
      rfl
    exact isReadAs_gap_append ne_nil blank (by decide) (by decide) (by decide) hit (by simp) ends
  | @wordOf gap more _ ne_nil blank more_ne_nil more_blank ends =>
    have spelled : Spelled ["percent".toList, "of".toList]
        ("percent".toList ++ (more ++ "of".toList)) := .cons more_ne_nil more_blank (.last _)
    have leading := spelled.leadingWord_append phrase ends
    have hit (b : Option Char) (hb : opensWord b = true) :
        equationRule b ("percent".toList ++ (more ++ "of".toList) ++ rest) =
          some ⟨("percent".toList ++ (more ++ "of".toList)).length, " % * ".toList⟩ := by
      rw [equationRule_percent hb leading,
        (phraseRule_eq_some_iff phrase).2 ⟨hb, _, rest, rfl, spelled, ends, rfl⟩, Option.some_or]
    exact isReadAs_gap_append ne_nil blank (by simp) (by decide) (by decide) hit (by simp) ends

/-! ## Percent signs behind numbers -/

/-- Commas between digits do not matter for a word behind blanks. -/
theorem ofFollows_dropThousands (text : List Char) :
    OfFollows (dropThousands text) ↔ OfFollows text := by
  refine Iff.of_eq (dropThousands_congr (fun text thin h => propext ?_) text)
  have places (t : List Char) : OfFollows t ↔ ∃ gap, gap.all isBlank = true ∧
      ∃ rest, t = gap ++ "of".toList ++ rest ∧ goesOn rest = false := by
    constructor
    · rintro ⟨gap, rest, rfl, blank, hrest⟩
      exact ⟨gap, blank, rest, by simp, hrest⟩
    · rintro ⟨gap, blank, rest, rfl, hrest⟩
      exact ⟨gap, rest, by simp, blank, hrest⟩
  rw [places, places]
  refine exists_congr fun gap => and_congr_right fun blank => ?_
  refine h.exists_append_iff (fun c hc => ?_) (by simp [List.getLast?_append])
  have letters : "of".toList.all Char.isLower = true := by decide
  exact (List.mem_append.1 hc).symm.imp (List.all_eq_true.1 letters c) (List.all_eq_true.1 blank c)

namespace PercentAt

variable {factor : Bool} {text rest : List Char}

theorem dropThousands (h : PercentAt factor text rest) :
    PercentAt factor text (dropThousands rest) := by
  cases h with
  | sign alone => exact .sign fun h => alone ((ofFollows_dropThousands rest).1 h)
  | signOf blank ends => exact .signOf blank (by rwa [goesOn_dropThousands])
  | word ne_nil blank alone ends =>
    exact .word ne_nil blank (fun h => alone ((ofFollows_dropThousands rest).1 h))
      (by rwa [goesOn_dropThousands])
  | wordOf ne_nil blank more_ne_nil more_blank ends =>
    exact .wordOf ne_nil blank more_ne_nil more_blank (by rwa [goesOn_dropThousands])

theorem of_mem (h : PercentAt factor text rest) {c : Char} (hc : c ∈ text) :
    c = '%' ∨ c.isLower = true ∨ isBlank c = true := by
  have letters (w : List Char) (hw : w.all Char.isLower = true) (hc : c ∈ w) :=
    List.all_eq_true.1 hw c hc
  cases h with
  | sign => exact .inl (List.mem_singleton.1 hc)
  | signOf blank =>
    obtain rfl | hc | hc := (List.mem_cons.1 hc).imp_right List.mem_append.1
    · exact .inl rfl
    · exact .inr (.inr (List.all_eq_true.1 blank c hc))
    · exact .inr (.inl (letters _ (by decide) hc))
  | word _ blank =>
    obtain hc | hc := List.mem_append.1 hc
    · exact .inr (.inr (List.all_eq_true.1 blank c hc))
    · exact .inr (.inl (letters _ (by decide) hc))
  | wordOf _ blank _ more_blank =>
    obtain hc | hc := List.mem_append.1 hc
    · exact .inr (.inr (List.all_eq_true.1 blank c hc))
    · obtain hc | hc | hc := (List.mem_append.1 hc).imp_right List.mem_append.1
      · exact .inr (.inl (letters _ (by decide) hc))
      · exact .inr (.inr (List.all_eq_true.1 more_blank c hc))
      · exact .inr (.inl (letters _ (by decide) hc))

/-- A spelling starts with the sign or a blank. -/
theorem isApart (h : PercentAt factor text rest) : IsApart text := by
  have blank_first {gap more : List Char} (ne_nil : gap ≠ []) (blank : gap.all isBlank = true) :
      ∃ c cs, gap ++ more = c :: cs ∧ isWord c = false ∧ c ≠ ',' := by
    obtain ⟨c, cs, rfl⟩ := List.exists_cons_of_ne_nil ne_nil
    have hc := List.all_eq_true.1 blank c List.mem_cons_self
    refine ⟨c, cs ++ more, rfl, isWord_eq_false_of_isBlank hc, ?_⟩
    rintro rfl
    exact absurd hc (by decide)
  constructor
  · cases h with
    | sign => exact ⟨_, _, rfl, by decide, by decide⟩
    | signOf => exact ⟨_, _, rfl, by decide, by decide⟩
    | word ne_nil blank => exact blank_first ne_nil blank
    | wordOf ne_nil blank => exact blank_first ne_nil blank
  · intro c hc
    refine Bool.eq_false_iff.2 fun digit => ?_
    obtain rfl | hlower | hblank := h.of_mem hc
    · exact absurd digit (by decide)
    · rw [isLower_eq_false_of_isDigit digit] at hlower
      cases hlower
    · rw [isBlank_eq_false_of_isWord (isWord_of_isDigit digit)] at hblank
      cases hblank

end PercentAt

/-- What is left of a percent sign: a star or a blank. -/
def leftOver (factor : Bool) : List Char := if factor then ['*'] else [' ']

theorem isReadAs_leftOver (factor : Bool) (rest : List Char) :
    IsReadAs (star factor) (leftOver factor) rest := by
  have single {c : Char} (hword : isWord c = false) (hc : c ≠ '%') :
      IsReadAs ([c].filter isEquationChar) [c] rest := by
    refine isReadAs_singleton (fun b => ?_) hword
    rw [percentEquationRule, Rule.orElse, percentOfRule_eq_none hc, Option.none_or]
    exact vocabularyRule_eq_none fits_equation (isLower_eq_false_of_not_isWord hword)
  cases factor with
  | false => exact single (c := ' ') (by decide) (by decide)
  | true => exact single (c := '*') (by decide) (by decide)

theorem isApart_leftOver (factor : Bool) : IsApart (leftOver factor) := by
  cases factor with
  | false => exact ⟨⟨' ', [], rfl, by decide, by decide⟩, by simp [leftOver]; decide⟩
  | true => exact ⟨⟨'*', [], rfl, by decide, by decide⟩, by simp [leftOver]; decide⟩

/-- **A percent sign behind a number says nothing** in an equation, in whatever spelling. -/
theorem toEquation_percent {before n spelling after : List Char} {d : Digits} {factor : Bool}
    (hn : IsDecimal n d)
    (h : PercentAt factor (withoutSigns (spelling.flatMap lower))
      (withoutSigns (after.flatMap lower))) :
    toEquation (before ++ (n ++ (spelling ++ after))) =
      toEquation (before ++ (n ++ (leftOver factor ++ after))) := by
  have signs : withoutSigns ((leftOver factor).flatMap lower) = leftOver factor := by
    cases factor <;> decide
  rw [toEquation_behind_number hn h.isApart h.dropThousands.isReadAs,
    toEquation_behind_number hn (by rw [signs]; exact isApart_leftOver factor)
      (by rw [signs]; exact isReadAs_leftOver factor _)]

end Wording

/-! ## Answers -/

open Decimal Unicode Wording

/-- A text is refused or has the answer of another one. -/
def AnsweredAs (text other : List Char) : Prop :=
  ∀ a, answerAlgebra text = .ok a → ∃ b, answerAlgebra other = .ok b ∧ b.result = a.result

/-- A decimal that is the hundredth part of another one. -/
def IsHundredth (part whole : List Char) : Prop :=
  ∃ d e, IsDecimal part d ∧ IsDecimal whole e ∧
    100 * d.units * 10 ^ e.fraction.length = e.units * 10 ^ d.fraction.length

/-- **A percent sign behind a number is left out of an equation**, so the number counts as its
hundredth part exactly if the equation without the sign does. -/
theorem answerAlgebra_percent {before n part spelling after : List Char} {factor : Bool}
    (hundredth : IsHundredth part n)
    (h : PercentAt factor (withoutSigns (spelling.flatMap lower))
      (withoutSigns (after.flatMap lower))) :
    answerAlgebra (before ++ (n ++ (spelling ++ after))) =
        answerAlgebra (before ++ (n ++ (leftOver factor ++ after))) ∧
      (AnsweredAs (before ++ (n ++ (spelling ++ after)))
          (before ++ (part ++ (star factor ++ after))) ↔
        AnsweredAs (before ++ (n ++ (leftOver factor ++ after)))
          (before ++ (part ++ (star factor ++ after)))) := by
  obtain ⟨_, _, _, hn, _⟩ := hundredth
  have same : answerAlgebra (before ++ (n ++ (spelling ++ after))) =
      answerAlgebra (before ++ (n ++ (leftOver factor ++ after))) := by
    rw [answerAlgebra, answerAlgebra, toEquation_percent hn h]
  exact ⟨same, by rw [AnsweredAs, AnsweredAs, same]⟩

/-- A tenth of the unknown, with capitals and more blanks than one. -/
theorem answerAlgebra_percent_of :
    IsHundredth "0.1".toList "10".toList ∧
      PercentAt true (withoutSigns (" Percent  OF".toList.flatMap lower))
        (withoutSigns (" x = 5".toList.flatMap lower)) ∧
      answerAlgebra ([] ++ ("10".toList ++ (" Percent  OF".toList ++ " x = 5".toList))) =
        answerAlgebra ([] ++ ("10".toList ++ (leftOver true ++ " x = 5".toList))) ∧
      (AnsweredAs ([] ++ ("10".toList ++ (" Percent  OF".toList ++ " x = 5".toList)))
          ([] ++ ("0.1".toList ++ (star true ++ " x = 5".toList))) ↔
        AnsweredAs ([] ++ ("10".toList ++ (leftOver true ++ " x = 5".toList)))
          ([] ++ ("0.1".toList ++ (star true ++ " x = 5".toList)))) := by
  have hundredth : IsHundredth "0.1".toList "10".toList :=
    ⟨⟨['0'], ['1']⟩, ⟨"10".toList, []⟩,
      @IsDecimal.point ['0'] ['1'] (by decide) (by decide) (by decide),
      .whole (by decide) (by decide), by decide⟩
  have spelling : withoutSigns (" Percent  OF".toList.flatMap lower) =
      [' '] ++ ("percent".toList ++ ([' ', ' '] ++ "of".toList)) := by decide
  have percent : PercentAt true (withoutSigns (" Percent  OF".toList.flatMap lower))
      (withoutSigns (" x = 5".toList.flatMap lower)) := by
    rw [spelling]
    exact .wordOf (by decide) (by decide) (by decide) (by decide) (by decide)
  exact ⟨hundredth, percent, answerAlgebra_percent hundredth percent⟩

/-- The answer to `10% of x = 5` is that of `10 * x = 5`, which is not that of `0.1 * x = 5`. -/
theorem not_answeredAs_percent_of :
    ¬AnsweredAs "10% of x = 5".toList "0.1* x = 5".toList := by
  have equation : toEquation "10% of x = 5".toList = "10*x=5".toList := by
    rw [toEquation_eq_filter, dropThousands_eq_self (by decide)]
    decide +kernel
  have other : toEquation "0.1* x = 5".toList = "0.1*x=5".toList := by
    rw [toEquation_eq_filter, dropThousands_eq_self (by decide)]
    decide +kernel
  have half : ((Equation.solve "10*x=5".toList).toOption.map (·.solution)).map (·.answer) =
      some "x = 0.5" := by decide +kernel
  have fifty : ((Equation.solve "0.1*x=5".toList).toOption.map (·.solution)).map (·.answer) =
      some "x = 50" := by decide +kernel
  rw [← equation, ← answerAlgebra_toOption] at half
  rw [← other, ← answerAlgebra_toOption] at fifty
  intro h
  cases ha : answerAlgebra "10% of x = 5".toList with
  | error =>
    rw [ha] at half
    cases half
  | ok a =>
    obtain ⟨b, hb, same⟩ := h a ha
    rw [ha] at half
    rw [hb] at fifty
    have results : b.result = "x = 50" ∧ a.result = "x = 0.5" :=
      ⟨Option.some.inj fifty, Option.some.inj half⟩
    rw [results.1, results.2] at same
    exact absurd same (by decide)

end Reckoner
