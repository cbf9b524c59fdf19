import Reckoner.Proofs.Wording.Calculation
import Reckoner.Proofs.Wording.Equation

/-!
# Commas between digits are inert

The pass for thousands separators is repeated until nothing changes, which it does at the latest
when there are no commas left (`exists_iterate_dropThousands`), and then no separator stands anywhere
(`goesOn_of_dropThousands`). All other passes take a text and the same text without some commas
between digits to two such texts again (`Thinned.flatMap`, `Thinned.applyFrom`) until only other
characters are kept. So such commas change neither the calculation nor the equation that a text words
(`thousands_inert`).
-/

namespace Reckoner.Wording

open Text Unicode

/-! ## Repeated passes -/

theorem isDigit_comma : isDigit ',' = false := by decide

/-- Nothing but commas is left out. -/
theorem Thinned.count_add_length {before : Option Char} {text thin : List Char}
    (h : Thinned before text thin) :
    text.count ',' + thin.length = thin.count ',' + text.length := by
  induction h with
  | nil => rfl
  | keep _ ih =>
    simp only [List.count_cons, List.length_cons]
    omega
  | drop _ _ _ ih =>
    simp only [List.count_cons, List.length_cons, beq_self_eq_true, if_true]
    omega

/-- Commas between digits can be left out one after the other: what is left out first is no neighbour
of what is left out later. -/
theorem Thinned.trans {before : Option Char} {text thin thinner : List Char}
    (h : Thinned before text thin) (h' : Thinned before thin thinner) :
    Thinned before text thinner := by
  induction h generalizing thinner with
  | nil => exact h'
  | keep h ih =>
    cases h' with
    | keep h' => exact .keep (ih h')
    | drop digit behind h' =>
      have kept := ih (.keep h')
      cases h with
      | keep h =>
        cases kept with
        | keep kept => exact .drop digit behind kept
        | drop comma => cases isDigit_comma.symm.trans comma
      | drop comma => cases isDigit_comma.symm.trans comma
  | drop digit behind h ih =>
    cases h' with
    | keep h' => exact .drop digit behind (ih h')
    | drop => cases isDigit_comma.symm.trans behind

theorem Thinned.refl (before : Option Char) (text : List Char) : Thinned before text text := by
  induction text generalizing before with
  | nil => exact .nil
  | cons c text ih => exact .keep (ih (some c))

theorem thinned_apply_thousandsRule (text : List Char) :
    Thinned none text (thousandsRule.apply text) :=
  thinned_applyFrom_thousandsRule none text

/-- **Only commas between digits are left out.** -/
theorem thinned_dropThousands (text : List Char) : Thinned none text (dropThousands text) := by
  fun_induction dropThousands text with
  | case1 text next _ ih => exact (thinned_apply_thousandsRule text).trans ih
  | case2 text => exact .refl none text

/-- **The passes end.** There are no more of them than commas, each one before the last has an
effect, and none behind it would have one. -/
theorem exists_iterate_dropThousands (text : List Char) :
    ∃ n ≤ text.count ',', dropThousands text = thousandsRule.apply^[n] text ∧
      ∀ m, thousandsRule.apply^[m + 1] text = thousandsRule.apply^[m] text ↔ n ≤ m := by
  fun_induction dropThousands text with
  | case1 text next shorter ih =>
    obtain ⟨n, hn, result, stable⟩ := ih
    have counts : text.count ',' + next.length = next.count ',' + text.length :=
      (thinned_apply_thousandsRule text).count_add_length
    refine ⟨n + 1, by omega, result, fun m => ?_⟩
    cases m with
    | zero =>
      refine iff_of_false (fun same => ?_) (by omega)
      have same : next = text := same
      rw [same] at shorter
      exact lt_irrefl _ shorter
    | succ m => exact (stable m).trans Nat.succ_le_succ_iff.symm
  | case2 text next longer =>
    have fixed : thousandsRule.apply text = text :=
      (thinned_apply_thousandsRule text).eq_of_length (Nat.le_of_not_lt longer)
    refine ⟨0, Nat.zero_le _, rfl, fun m => iff_of_true ?_ (Nat.zero_le m)⟩
    rw [Function.iterate_fixed fixed, Function.iterate_fixed fixed]

theorem apply_dropThousands (text : List Char) :
    thousandsRule.apply (dropThousands text) = dropThousands text := by
  fun_induction dropThousands text with
  | case1 text next _ ih => exact ih
  | case2 text next longer =>
    exact (thinned_apply_thousandsRule text).eq_of_length (Nat.le_of_not_lt longer)

/-- What is taken gets shorter. -/
theorem length_applyFrom_lt {before : Option Char} {text : List Char} {hit : Hit}
    (h : thousandsRule before text = some hit) :
    (thousandsRule.applyFrom before 0 text).length < text.length := by
  obtain ⟨d, e, f, g, rest, rfl, -, -, rfl⟩ := thousandsRule_eq_some_iff.1 h
  have no_longer :=
    (thinned_applyFrom_thousandsRule ([d, ',', e, f, g].getLast?.or before) rest).length_le
  rw [Rule.applyFrom_take h rfl (by simp), List.length_append, List.length_append]
  simp only [List.length_cons, List.length_nil]
  omega

/-- Where a pass changes nothing, there is nothing to take at the start. -/
theorem thousandsRule_eq_none_of_fixed {before : Option Char} {text : List Char}
    (h : thousandsRule.applyFrom before 0 text = text) : thousandsRule before text = none :=
  Option.eq_none_iff_forall_ne_some.2 fun hit hhit => by
    have shorter := length_applyFrom_lt hhit
    rw [h] at shorter
    exact lt_irrefl _ shorter

/-- Nor is there at any other place. -/
theorem exists_thousandsRule_eq_none {before : Option Char} {pre post : List Char}
    (h : thousandsRule.applyFrom before 0 (pre ++ post) = pre ++ post) :
    ∃ b, thousandsRule b post = none := by
  induction pre generalizing before with
  | nil => exact ⟨before, thousandsRule_eq_none_of_fixed h⟩
  | cons c pre ih =>
    have copied := thousandsRule_eq_none_of_fixed h
    rw [List.cons_append] at copied h
    rw [Rule.applyFrom_copy copied] at h
    exact ih (List.cons_eq_cons.1 h).2

/-- **No separator is left**: behind a digit and a comma no three digits end a word. -/
theorem goesOn_of_dropThousands {text pre post : List Char} {d e f g : Char}
    (h : dropThousands text = pre ++ ([d, ',', e, f, g] ++ post))
    (digits : [d, e, f, g].all isDigit = true) : goesOn post = true := by
  have fixed := apply_dropThousands text
  rw [h] at fixed
  obtain ⟨b, taken⟩ := exists_thousandsRule_eq_none fixed
  by_contra ends
  rw [Bool.not_eq_true] at ends
  rw [thousandsRule_eq_some_iff.2 ⟨d, e, f, g, post, rfl, digits, ends, rfl⟩] at taken
  cases taken

/-! ## The other passes -/

/-- The decimal digits of all scripts have no other case. -/
theorem lower_of_isDigit {c : Char} (h : isDigit c = true) : lower c = [c] := by
  have apart : decimalDigit.entries.all (fun p =>
      caseRuns.runs.all fun r => Nat.blt p.2 r.first || Nat.blt r.last p.1) = true := by
    decide +kernel
  obtain ⟨p, hp, bounds⟩ := Ranges.contains_iff.1 ((Bool.and_eq_true _ _).mp h).1
  refine lower_eq_self (ne_of_isDigit h (by decide)) fun r hr => ?_
  have outside := List.all_eq_true.1 (List.all_eq_true.1 apart p hp) r hr
  simp only [Bool.or_eq_true, Nat.blt_eq] at outside
  omega

/-- No typographic sign is a digit, not even a raised one. -/
theorem plain_of_isDigit {c : Char} (h : isDigit c = true) :
    plainSign c = c ∧ plainPower c = [c] := by
  have signs : ['×', '÷', '−', '²', '³'].all (!isDigit ·) = true := by decide
  have hmem : c ∉ ['×', '÷', '−', '²', '³'] := fun hmem => by
    have no_digit := List.all_eq_true.1 signs c hmem
    rw [h] at no_digit
    cases no_digit
  simp only [List.mem_cons, List.not_mem_nil, or_false, not_or] at hmem
  constructor
  · unfold plainSign
    split <;> simp_all
  · unfold plainPower
    split <;> simp_all

/-- Behind a percent sign blanks and the word `of` are looked for. -/
theorem isLower_or_isBlank_of_gap {gap : List Char} (blank : gap.all isBlank = true) :
    ∀ d ∈ gap ++ "of".toList, d.isLower = true ∨ isBlank d = true := by
  have letters : "of".toList.all Char.isLower = true := by decide
  intro d hd
  obtain hd | hd := List.mem_append.1 hd
  · exact .inr (List.all_eq_true.1 blank d hd)
  · exact .inl (List.all_eq_true.1 letters d hd)

namespace Thinned

variable {b : Option Char} {text thin : List Char}

theorem append_same {a : List Char} (h : Thinned (a.getLast?.or b) text thin) :
    Thinned b (a ++ text) (a ++ thin) := by
  induction a generalizing b with
  | nil => exact h
  | cons c a ih => exact .keep (ih (getLast?_cons_or c a b ▸ h))

/-- Passes that write something for each character, and for digits and commas themselves. -/
theorem flatMap {g : Char → List Char} (digit : ∀ c, isDigit c = true → g c = [c])
    (comma : g ',' = [',']) (h : Thinned b text thin) {prev : Option Char}
    (hprev : prev = b ∨ b.any isDigit = false) :
    Thinned prev (text.flatMap g) (thin.flatMap g) := by
  induction h generalizing prev with
  | nil => exact .nil
  | @keep b c text thin h ih =>
    rw [List.flatMap_cons, List.flatMap_cons]
    refine append_same (ih ?_)
    cases hc : isDigit c with
    | true =>
      rw [digit c hc]
      exact .inl rfl
    | false => exact .inr hc
  | @drop d e text thin before behind h ih =>
    obtain rfl : prev = some d := hprev.resolve_right (by simp [before])
    rw [List.flatMap_cons, List.flatMap_cons, List.flatMap_cons, comma, digit e behind]
    exact .drop before behind (ih (.inl rfl))

theorem percentOfRule_eq (h : Thinned b text thin) (before : Option Char) :
    percentOfRule before text = percentOfRule before thin := by
  cases h with
  | nil => rfl
  | @keep _ c text thin h =>
    by_cases hc : c = '%'
    · subst hc
      refine percentOfRule_congr fun gap blank => ?_
      have same := h.exists_append_iff (isLower_or_isBlank_of_gap blank) (by simp)
      simpa [List.cons_append, List.cons_eq_cons] using same
    · rw [percentOfRule_eq_none hc, percentOfRule_eq_none hc]
  | drop before behind h =>
    have hc : ',' ≠ '%' := by decide
    rw [percentOfRule_eq_none hc, percentOfRule_eq_none (ne_of_isDigit behind (by decide))]

end Thinned

section Words

variable {table : List Phrase} (fits : ∀ p ∈ table ++ numeralPhrases, p.Fits)

/-- What is replaced with a table of phrases. -/
def wordRule (table : List Phrase) : Rule := percentOfRule.orElse (vocabularyRule table)

include fits

/-- Behind its first character, a letter or a percent sign, only letters and blanks are taken. -/
theorem exists_of_wordRule {b : Option Char} {c : Char} {cs : List Char} {hit : Hit}
    (h : wordRule table b (c :: cs) = some hit) :
    (c = '%' ∨ c.isLower = true) ∧ ∃ a rest, cs = a ++ rest ∧ hit.length = a.length + 1 ∧
      ∀ d ∈ a, d.isLower = true ∨ isBlank d = true := by
  obtain h | ⟨-, h⟩ := Option.or_eq_some_iff.1 h
  · obtain ⟨gap, rest, htext, blank, -, rfl⟩ := percentOfRule_eq_some_iff.1 h
    obtain ⟨rfl, rfl⟩ := List.cons_eq_cons.1 htext
    exact ⟨.inl rfl, gap ++ "of".toList, rest, by rw [List.append_assoc], by simp,
      isLower_or_isBlank_of_gap blank⟩
  · obtain ⟨p, hp, c', a, rest, htext, ha, -, rfl⟩ := exists_spelled_of_vocabularyRule fits h
    obtain ⟨rfl, rfl⟩ := List.cons_eq_cons.1 htext
    have letters := ha.isLower_or_isBlank (fits p hp).isPhrase.all_isLower
    refine ⟨.inr ?_, a, rest, rfl, rfl, fun d hd => letters d (List.mem_cons_of_mem _ hd)⟩
    exact Bool.of_not_eq_false fun hc => by
      rw [vocabularyRule_eq_none fits hc] at h
      cases h

theorem wordRule_eq_none {b : Option Char} {c : Char} {cs : List Char} (percent : c ≠ '%')
    (hc : c.isLower = false) : wordRule table b (c :: cs) = none := by
  refine Option.eq_none_iff_forall_ne_some.2 fun hit h => ?_
  obtain ⟨rfl | lower, -⟩ := exists_of_wordRule fits h
  · exact percent rfl
  · rw [hc] at lower
    cases lower

theorem wordRule_of_isDigit {b : Option Char} {c : Char} {cs : List Char} (h : isDigit c = true) :
    wordRule table b (c :: cs) = none :=
  wordRule_eq_none fits (ne_of_isDigit h (by decide)) (isLower_eq_false_of_isDigit h)

namespace Thinned

variable {b : Option Char} {text thin : List Char}

theorem wordRule_eq (h : Thinned b text thin) (before : Option Char) :
    wordRule table before text = wordRule table before thin := by
  rw [wordRule, Rule.orElse, Rule.orElse, h.percentOfRule_eq, h.vocabularyRule_eq fits]

/-- **Replacing words keeps texts alike.** What stands before them may have been replaced, too, if it
is no digit. The induction is on the length of the text. -/
theorem applyFrom (h : Thinned b text thin) {prev : Option Char}
    (hprev : prev = b ∨ b.any isDigit = false) :
    Thinned prev ((wordRule table).applyFrom b 0 text) ((wordRule table).applyFrom b 0 thin) := by
  induction hn : text.length using Nat.strong_induction_on generalizing b prev text thin with
  | _ n ih =>
    subst hn
    cases h with
    | nil => exact .nil
    | @keep _ c text thin h =>
      have same := (@Thinned.keep b c text thin h).wordRule_eq fits b
      cases hit_eq : wordRule table b (c :: text) with
      | none =>
        rw [Rule.applyFrom_copy hit_eq, Rule.applyFrom_copy (same.symm.trans hit_eq)]
        exact .keep (ih _ (by simp) h (.inl rfl) rfl)
      | some hit =>
        obtain ⟨start, a, rest, rfl, hlength, letters⟩ := exists_of_wordRule fits hit_eq
        obtain ⟨more, rfl, hmore⟩ := h.append_left letters
        have taken := same.symm.trans hit_eq
        rw [← List.cons_append] at hit_eq taken ⊢
        rw [← List.cons_append, Rule.applyFrom_take hit_eq hlength (by simp),
          Rule.applyFrom_take taken hlength (by simp), getLast?_cons_or]
        have no_digit : (a.getLast?.or (some c)).any isDigit = false := by
          cases hlast : a.getLast? with
          | none => exact start.elim (fun hc => by rw [hc]; decide) fun hc => isDigit_eq_false (.inl hc)
          | some d => exact isDigit_eq_false (letters d (List.mem_of_getLast? hlast))
        refine append_same (ih _ ?_ hmore (.inr no_digit) rfl)
        simp only [List.length_append, List.length_cons]
        omega
    | @drop d e text thin before behind h =>
      obtain rfl : prev = some d := hprev.resolve_right (by simp [before])
      have comma {b : Option Char} {cs : List Char} : wordRule table b (',' :: cs) = none :=
        wordRule_eq_none fits (by decide) (by decide)
      have digit {b : Option Char} {cs : List Char} : wordRule table b (e :: cs) = none :=
        wordRule_of_isDigit fits behind
      rw [Rule.applyFrom_copy comma, Rule.applyFrom_copy digit, Rule.applyFrom_copy digit]
      refine .drop before behind (ih _ ?_ h (.inl rfl) rfl)
      simp only [List.length_cons]
      omega

end Thinned

end Words

/-! ## What is kept -/

namespace Thinned

variable {b : Option Char} {text thin : List Char} {p : Char → Bool}

/-- Lone letters are found beside the same neighbours. -/
theorem filter_applyCrosses (h : Thinned b text thin) (hp : p ',' = false) (started : Bool) :
    (applyCrosses b started text).filter p = (applyCrosses b started thin).filter p := by
  induction h generalizing started with
  | nil => rfl
  | @keep b c text thin h ih =>
    have cross : (c = 'x' && started && isLone b text.head? && text.any (!isBlank ·)) =
        (c = 'x' && started && isLone b thin.head? && thin.any (!isBlank ·)) := by
      by_cases hc : c = 'x'
      · subst hc
        rw [h.any_eq, h.head?_eq (by decide)]
      · simp [hc]
    rw [applyCrosses, applyCrosses, cross, List.filter_cons, List.filter_cons, ih]
  | @drop d e text thin before behind h ih =>
    have he : e ≠ 'x' := ne_of_isDigit behind (by decide)
    have solid : isBlank e = false := isBlank_eq_false_of_isWord (isWord_of_isDigit behind)
    have comma : ',' ≠ 'x' := by decide
    simp [applyCrosses, he, comma, solid, hp, ih, List.filter_cons]

theorem filter_dropSpelledX (h : Thinned b text thin) (hp : p ',' = false) :
    (dropSpelledX b text).filter p = (dropSpelledX b thin).filter p := by
  induction h with
  | nil => rfl
  | @keep b c text thin h ih =>
    have spelled : (c = 'x' && (b.any Char.isLower || text.head?.any Char.isLower)) =
        (c = 'x' && (b.any Char.isLower || thin.head?.any Char.isLower)) := by
      by_cases hc : c = 'x'
      · subst hc
        rw [h.head?_eq (by decide)]
      · simp [hc]
    rw [dropSpelledX, dropSpelledX, spelled]
    split
    · exact ih
    · rw [List.filter_cons, List.filter_cons, ih]
  | @drop d e text thin before behind h ih =>
    have he : e ≠ 'x' := ne_of_isDigit behind (by decide)
    have comma : ',' ≠ 'x' := by decide
    simp [dropSpelledX, he, comma, hp, ih, List.filter_cons]

theorem plain (h : Thinned none text thin) : Thinned none (plain text) (plain thin) := by
  rw [Wording.plain, Wording.plain, List.map_flatMap, List.map_flatMap]
  refine h.flatMap (fun c hc => ?_) (by decide) (.inl rfl)
  rw [lower_of_isDigit hc, List.map_singleton, (plain_of_isDigit hc).1]

theorem withoutPowers (h : Thinned none text thin) :
    Thinned none (text.flatMap plainPower) (thin.flatMap plainPower) :=
  h.flatMap (fun _ hc => (plain_of_isDigit hc).2) rfl (.inl rfl)

/-- **The calculation does not depend on commas between digits.** -/
theorem toExpression_eq (h : Thinned none text thin) : toExpression thin = toExpression text := by
  have kept {text thin : List Char} (h : Thinned none text thin) :
      (applyCrosses none false (expressionRule.apply text)).filter
          (fun c => isExpressionChar c || isBlank c) =
        (applyCrosses none false (expressionRule.apply thin)).filter
          (fun c => isExpressionChar c || isBlank c) :=
    (h.applyFrom fits_expression (.inl rfl)).filter_applyCrosses (by decide) false
  rw [toExpression, toExpression, applyNumerals_applyPhrases, applyNumerals_applyPhrases,
    dropThousands_congr (fun _ _ => kept), dropThousands_congr (fun _ _ => kept), kept h.plain]

/-- **The equation does not depend on commas between digits.** -/
theorem toEquation_eq (h : Thinned none text thin) : toEquation thin = toEquation text := by
  have kept {text thin : List Char} (h : Thinned none text thin) :
      (dropSpelledX none (percentEquationRule.apply text)).filter isEquationChar =
        (dropSpelledX none (percentEquationRule.apply thin)).filter isEquationChar :=
    (h.applyFrom fits_equation (.inl rfl)).filter_dropSpelledX (by decide)
  rw [toEquation, toEquation, applyNumerals_applyPhrases_equation,
    applyNumerals_applyPhrases_equation, dropThousands_congr (fun _ _ => kept),
    dropThousands_congr (fun _ _ => kept), kept h.plain.withoutPowers]

end Thinned

/-- **Thousands separators are inert.** The passes that leave them out end, at the latest when there
are no commas left; only commas between two digits are left out, and no comma between a digit and
three digits that end a word is left. And whichever commas between two digits are missing in a text,
it words the same calculation and the same equation. -/
theorem thousands_inert (text : List Char) :
    (∃ n ≤ text.count ',', dropThousands text = thousandsRule.apply^[n] text ∧
      ∀ m, thousandsRule.apply^[m + 1] text = thousandsRule.apply^[m] text ↔ n ≤ m) ∧
    Thinned none text (dropThousands text) ∧
    (∀ pre post d e f g, dropThousands text = pre ++ ([d, ',', e, f, g] ++ post) →
      [d, e, f, g].all isDigit = true → goesOn post = true) ∧
    ∀ thin, Thinned none text thin →
      toExpression thin = toExpression text ∧ toEquation thin = toEquation text :=
  ⟨exists_iterate_dropThousands text, thinned_dropThousands text,
    fun _ _ _ _ _ _ => goesOn_of_dropThousands, fun _ h => ⟨h.toExpression_eq, h.toEquation_eq⟩⟩

/-- Of the commas in `1,000,000 x 1,000a` the last one stays, as no word ends behind its group. -/
theorem thousands_inert_product :
    Thinned none "1,000,000 x 1,000a".toList "1000,000 x 1,000a".toList ∧
    toExpression "1000,000 x 1,000a".toList = toExpression "1,000,000 x 1,000a".toList ∧
    toEquation "1000,000 x 1,000a".toList = toEquation "1,000,000 x 1,000a".toList ∧
    dropThousands "1,000,000 x 1,000a".toList =
      "1000000 x ".toList ++ (['1', ',', '0', '0', '0'] ++ ['a']) ∧
    goesOn ['a'] = true := by
  obtain ⟨-, -, none_left, inert⟩ := thousands_inert "1,000,000 x 1,000a".toList
  have first : thousandsRule.apply "1,000,000 x 1,000a".toList = "1000,000 x 1,000a".toList := rfl
  have second : thousandsRule.apply "1000,000 x 1,000a".toList = "1000000 x 1,000a".toList := rfl
  have third : thousandsRule.apply "1000000 x 1,000a".toList = "1000000 x 1,000a".toList := rfl
  have result : dropThousands "1,000,000 x 1,000a".toList =
      "1000000 x ".toList ++ (['1', ',', '0', '0', '0'] ++ ['a']) := by
    rw [← dropThousands_apply, first, ← dropThousands_apply, second, dropThousands_of_apply_eq third]
    rfl
  have thinned : Thinned none "1,000,000 x 1,000a".toList "1000,000 x 1,000a".toList :=
    first ▸ thinned_apply_thousandsRule _
  obtain ⟨expression, equation⟩ := inert _ thinned
  exact ⟨thinned, expression, equation, result, none_left _ _ _ _ _ _ result (by decide)⟩

end Reckoner.Wording
