import Reckoner.Proofs.Wording.Direct

/-!
# Texts in parts

A text is cut behind a number, and what stands there up to another place is a part of its own if no
number goes on in it (`IsApart`) and if it is read as the same signs whatever stands before it
(`IsReadAs`). The passes then make the equation part by part (`made_append`): thousands, words and
percent signs do not go past the end of a number, nor does a word of letters.
-/

namespace Reckoner.Wording

open Decimal Text Unicode

/-! ## What is replaced at the end of a part -/

/-- What stands before a place counts only where a word may go on. -/
theorem applyFrom_percentEquationRule (b b' : Option Char) {text : List Char}
    (h : opensWord b = opensWord b' ∨ goesOn text = false) :
    percentEquationRule.applyFrom b 0 text = percentEquationRule.applyFrom b' 0 text := by
  cases text with
  | nil => rfl
  | cons c text =>
    have percents : percentOfRule b (c :: text) = percentOfRule b' (c :: text) :=
      percentOfRule_congr fun _ _ => Iff.rfl
    have words : equationRule b (c :: text) = equationRule b' (c :: text) := by
      obtain hb | hgo := h
      · exact vocabularyRule_congr fits_equation hb fun _ _ _ => Iff.rfl
      · have hc := isLower_eq_false_of_not_isWord (c := c) hgo
        exact (vocabularyRule_eq_none fits_equation hc).trans
          (vocabularyRule_eq_none fits_equation hc).symm
    rw [Rule.applyFrom, Rule.applyFrom, percentEquationRule, Rule.orElse, Rule.orElse, percents,
      words]

/-- Behind a character that is not part of `a`, it does not matter for `a` what stands. -/
theorem exists_append_iff_of_getLast? {text a rest : List Char} {d : Char}
    (hd : text.getLast? = some d) (ha : d ∉ a) :
    (∃ more, text ++ rest = a ++ more ∧ goesOn more = false) ↔
      ∃ more, text = a ++ more ∧ goesOn more = false := by
  have mem := List.mem_of_getLast? hd
  constructor
  · rintro ⟨more, hsplit, hmore⟩
    obtain ⟨tail, rfl, -⟩ | ⟨tail, rfl, rfl⟩ := List.append_eq_append_iff.1 hsplit
    · exact absurd (List.mem_append_left tail mem) ha
    · cases tail with
      | nil => exact absurd (by simpa using mem) ha
      | cons c tail => exact ⟨c :: tail, rfl, hmore⟩
  · rintro ⟨more, rfl, hmore⟩
    cases more with
    | nil => exact absurd (by simpa using mem) ha
    | cons c more => exact ⟨c :: (more ++ rest), by simp, hmore⟩

/-- Nothing that is replaced goes past a character of equations other than the unknown. -/
theorem percentEquationRule_append {b : Option Char} {text rest : List Char} {d : Char}
    (hd : text.getLast? = some d) (hchar : isEquationChar d = true) (hx : d ≠ 'x') :
    percentEquationRule b (text ++ rest) = percentEquationRule b text := by
  have no_letter : d.isLower ≠ true := fun h => hx (eq_unknown_of_isLower hchar h)
  have no_blank : isBlank d ≠ true := Bool.eq_false_iff.1 (isBlank_eq_false_of_isEquationChar hchar)
  have percents : percentOfRule b (text ++ rest) = percentOfRule b text := by
    refine percentOfRule_congr fun gap blank => ?_
    have letters : "of".toList.all Char.isLower = true := by decide
    refine exists_append_iff_of_getLast? hd fun hmem => ?_
    obtain rfl | hmem | hmem := (List.mem_cons.1 hmem).imp_right List.mem_append.1
    · cases hchar
    · exact no_blank (List.all_eq_true.1 blank d hmem)
    · exact no_letter (List.all_eq_true.1 letters d hmem)
  have words : equationRule b (text ++ rest) = equationRule b text :=
    vocabularyRule_congr fits_equation rfl fun a ha _ =>
      exists_append_iff_of_getLast? hd fun hmem => (ha d hmem).elim no_letter no_blank
  rw [percentEquationRule, Rule.orElse, Rule.orElse, percents, words]

/-! ## What a part is read as -/

/-- What a text is read as in front of another one: the signs that stay of it. -/
def IsReadAs (signs text rest : List Char) : Prop :=
  ∃ out, (∀ b, percentEquationRule.applyFrom b 0 (text ++ rest) =
      out ++ percentEquationRule.applyFrom none 0 rest) ∧
    out ≠ [] ∧ (∀ c ∈ out, c.isLower = false) ∧ out.filter isEquationChar = signs

/-- A sign that stands for itself. -/
theorem isReadAs_singleton {c : Char} {rest : List Char}
    (h : ∀ b, percentEquationRule b (c :: rest) = none) (hword : isWord c = false) :
    IsReadAs ([c].filter isEquationChar) [c] rest := by
  have opens : opensWord (some c) = opensWord none := by simp [opensWord, hword]
  refine ⟨[c], fun b => ?_, by simp, ?_, rfl⟩
  · rw [List.singleton_append, Rule.applyFrom_copy (h b),
      applyFrom_percentEquationRule (some c) none (.inl opens), List.singleton_append]
  · intro d hd
    cases List.mem_singleton.1 hd
    exact isLower_eq_false_of_not_isWord hword

/-- Blanks and a phrase are read as the symbols of the phrase. -/
theorem isReadAs_gap_append {gap a rest symbols signs : List Char} (ne_nil : gap ≠ [])
    (blank : gap.all isBlank = true) (ha : a ≠ []) (hsymbols : IsSymbols symbols)
    (hsigns : symbols.filter isEquationChar = signs)
    (hit : ∀ b, opensWord b = true → equationRule b (a ++ rest) = some ⟨a.length, symbols⟩)
    (start : (a ++ rest).head? ≠ some '%') (ends : goesOn rest = false) :
    IsReadAs signs (gap ++ a) rest := by
  refine ⟨gap ++ symbols, fun b => ?_, by simp [ne_nil], fun c hc => ?_, ?_⟩
  · obtain ⟨c, hc, hblank⟩ := exists_getLast?_of_blank ne_nil blank
    have opens : opensWord (some c) = true := by simp [opensWord, isWord_eq_false_of_isBlank hblank]
    have taken : percentEquationRule (some c) (a ++ rest) = some ⟨a.length, symbols⟩ := by
      have no_percent : percentOfRule (some c) (a ++ rest) = none := by
        refine Option.eq_none_iff_forall_ne_some.2 fun hit hhit => start ?_
        obtain ⟨_, _, htext, -⟩ := percentOfRule_eq_some_iff.1 hhit
        rw [htext, List.head?_cons]
      rw [percentEquationRule, Rule.orElse, no_percent, Option.none_or, hit _ opens]
    rw [List.append_assoc, isTidy_percentEquationRule.applyFrom_gap blank, hc, Option.some_or,
      Rule.applyFrom_take taken rfl ha, applyFrom_percentEquationRule _ none (.inr ends),
      List.append_assoc]
  · obtain hc | hc := List.mem_append.1 hc
    · exact isLower_eq_false_of_isBlank (List.all_eq_true.1 blank c hc)
    · exact hsymbols.no_letter c hc
  · rw [List.filter_append, filter_eq_nil_of_blank blank, List.nil_append, hsigns]

/-! ## The letters of words -/

/-- What stands before counts only if it is a small letter. -/
theorem dropSpelledX_before (b b' : Option Char) (h : b.any Char.isLower = b'.any Char.isLower)
    (text : List Char) : dropSpelledX b text = dropSpelledX b' text := by
  cases text with
  | nil => rfl
  | cons c text => rw [dropSpelledX, dropSpelledX, h]

/-- In front of what is no letter a text stands for itself. -/
theorem dropSpelledX_split {rest : List Char} (h : rest.head?.any Char.isLower = false)
    (b : Option Char) (text : List Char) :
    dropSpelledX b (text ++ rest) =
      dropSpelledX b text ++ dropSpelledX (text.getLast?.or b) rest := by
  induction text generalizing b with
  | nil => rfl
  | cons c text ih =>
    have beside : (text ++ rest).head?.any Char.isLower = text.head?.any Char.isLower := by
      cases text with
      | nil => exact h
      | cons => rfl
    rw [List.cons_append, dropSpelledX, dropSpelledX, beside, ih, getLast?_cons_or]
    split
    · rfl
    · rfl

/-- What is no small letter is kept, and parts the texts around it. -/
theorem dropSpelledX_between {out : List Char} (ne_nil : out ≠ [])
    (no_letter : ∀ c ∈ out, c.isLower = false) (text rest : List Char) :
    dropSpelledX none (text ++ (out ++ rest)) =
      dropSpelledX none text ++ (out ++ dropSpelledX none rest) := by
  obtain ⟨c, cs, rfl⟩ := List.exists_cons_of_ne_nil ne_nil
  have head : (c :: cs ++ rest).head?.any Char.isLower = false := no_letter c List.mem_cons_self
  have last : ((c :: cs).getLast?.or (text.getLast?.or none)).any Char.isLower = false := by
    rw [List.getLast?_eq_some_getLast ne_nil]
    exact no_letter _ (List.getLast_mem ne_nil)
  have no_unknown (pre post : List Char) : c :: cs ≠ pre ++ 'x' :: post := fun hsplit =>
    absurd (no_letter 'x' (by simp [hsplit])) (by decide)
  rw [dropSpelledX_split head,
    dropSpelledX_append fun pre post hsplit => absurd hsplit (no_unknown pre post),
    dropSpelledX_before _ none last]

/-! ## The equation that is made of parts -/

/-- The equation that is made of a text without capitals and typographic signs. -/
def made (text : List Char) : List Char :=
  (dropSpelledX none (percentEquationRule.apply (dropThousands text))).filter isEquationChar

/-- A part that has no digits and starts with a sign, so that no number goes on in it. -/
structure IsApart (part : List Char) : Prop where
  start : ∃ c cs, part = c :: cs ∧ isWord c = false ∧ c ≠ ','
  no_digit : ∀ c ∈ part, isDigit c = false

/-- **A part between a number and the rest of a text** is read for itself. -/
theorem made_append {text part rest signs : List Char} {d : Char} (hd : text.getLast? = some d)
    (hchar : isEquationChar d = true) (hx : d ≠ 'x') (apart : IsApart part)
    (h : IsReadAs signs part (dropThousands rest)) :
    made (text ++ (part ++ rest)) = made text ++ (signs ++ made rest) := by
  obtain ⟨out, hread, ne_nil, no_letter, rfl⟩ := h
  obtain ⟨solid, comma⟩ : goesOn (part ++ rest) = false ∧ (part ++ rest).head? ≠ some ',' := by
    obtain ⟨c, cs, rfl, hword, hcomma⟩ := apart.start
    exact ⟨hword, fun h => hcomma (Option.some.inj h)⟩
  have last : (dropThousands text).getLast? = some d :=
    (dropThousands_congr (fun _ _ h => h.getLast?_eq) text).trans hd
  have split : percentEquationRule.apply (dropThousands text ++ (part ++ dropThousands rest)) =
      percentEquationRule.apply (dropThousands text) ++
        (out ++ percentEquationRule.apply (dropThousands rest)) := by
    rw [Rule.apply, Rule.applyFrom_split (r := percentEquationRule)
      isTidy_percentEquationRule.length_le (fun b pre c post hsplit => ?_) (Nat.zero_le _), hread]
    · rfl
    · refine percentEquationRule_append ?_ hchar hx
      rw [← last, hsplit, List.getLast?_append_of_ne_nil _ (by simp)]
  rw [made, dropThousands_split solid comma, dropThousands_append apart.no_digit, split,
    dropSpelledX_between ne_nil no_letter, List.filter_append, List.filter_append]
  rfl

theorem isEquationChar_of_isLiteralChar {c : Char} (h : isLiteralChar c = true) :
    isEquationChar c = true ∧ c ≠ 'x' := by
  have not_unknown : c ≠ 'x' := by
    rintro rfl
    cases h
  rw [isLiteralChar, Bool.or_eq_true, decide_eq_true_eq] at h
  obtain digit | rfl := h
  · exact ⟨by rw [isEquationChar, digit, Bool.true_or], not_unknown⟩
  · exact ⟨rfl, not_unknown⟩

/-- What stands behind a number is made for itself. -/
theorem toEquation_behind_number {before n part after signs : List Char} {d : Digits}
    (hn : IsDecimal n d) (apart : IsApart (withoutSigns (part.flatMap lower)))
    (h : IsReadAs signs (withoutSigns (part.flatMap lower))
      (dropThousands (withoutSigns (after.flatMap lower)))) :
    toEquation (before ++ (n ++ (part ++ after))) =
      made (withoutSigns (before.flatMap lower) ++ n) ++
        (signs ++ made (withoutSigns (after.flatMap lower))) := by
  have literal {c : Char} (hc : c ∈ n) := isEquationChar_of_isLiteralChar (hn.isLiteralChar hc)
  have unworded : Unworded n := fun c hc => .inl (literal hc).1
  obtain ⟨last, hlast⟩ := Option.isSome_iff_exists.1 (List.getLast?_isSome.2 hn.ne_nil)
  obtain ⟨hchar, hx⟩ := literal (List.mem_of_getLast? hlast)
  have ends : (withoutSigns (before.flatMap lower) ++ n).getLast? = some last := by
    rw [List.getLast?_append, hlast, Option.some_or]
  rw [toEquation_eq_filter]
  simp only [List.flatMap_append, withoutSigns_append, unworded.withoutSigns_eq]
  rw [← List.append_assoc]
  exact made_append ends hchar hx apart h

end Reckoner.Wording
