import Reckoner.Proofs.Wording.Spelling
import Reckoner.Proofs.Wording.Thousands

/-!
# The equation that a text words

Whatever way the symbols of an equation are spelled, the same equation is made of them, without any
blank (`toEquation_spelled`). The passes over words are one reading of the text
(`toEquation_eq_filter`), in which the passes for `% of` before both tables of phrases are one, too.
A row of symbols has no commas and no percent signs (`toEquation_eq`), and its reading goes from one
symbol to the next (`exists_written_symbol`).
-/

namespace Reckoner.Wording

open Decimal Text Unicode

/-! ## The passes -/

/-- What is replaced in an equation that has no percent sign. -/
def equationRule : Rule := vocabularyRule (equationPhrases ++ phrases)

theorem isTidy_equationRule : equationRule.IsTidy := isTidy_vocabularyRule fits_equation

/-- What is replaced in an equation. -/
def percentEquationRule : Rule := percentOfRule.orElse equationRule

theorem isTidy_percentEquationRule : percentEquationRule.IsTidy :=
  isTidy_percentOfRule.orElse isTidy_equationRule

/-- The passes with the phrases of equations are one pass. -/
theorem applyPhrases_equationPhrases (text : List Char) :
    applyPhrases equationPhrases text =
      (percentOfRule.orElse (firstOf (equationPhrases.map Phrase.rule))).apply text := by
  have fit {p : Phrase} (hp : p ∈ equationPhrases) : p.Fits :=
    fits_equation p (by simp [equationVocabulary, hp])
  have pairwise : (equationPhrases.map Phrase.rule).Pairwise fun r s => r.IsTidy ∧ r.Precedes s :=
    List.pairwise_map.2 ((List.pairwise_append.1 pairwise_avoids).1.imp_of_mem fun hp hq h =>
      ⟨(fit hp).isTidy, (fit hp).precedes (fit hq) h⟩)
  have precedes : percentOfRule.Precedes (firstOf (equationPhrases.map Phrase.rule)) := by
    refine Rule.precedes_firstOf fun r hr => ?_
    obtain ⟨p, hp, rfl⟩ := List.mem_map.1 hr
    exact (fit hp).precedes_of_percent
  rw [precedes.apply_orElse isTidy_percentOfRule, ← foldl_apply_eq_firstOf pairwise, List.foldl_map]
  rfl

/-- The phrases of equations leave no percent sign before `of` and bring none. -/
theorem percentOfRule_applyPhrases (text : List Char) :
    percentOfRule.apply (applyPhrases equationPhrases text) = applyPhrases equationPhrases text := by
  have table : ∀ p ∈ equationPhrases, p.Fits ∧ '%' ∉ p.symbols.toList := by decide
  have tidy : (firstOf (equationPhrases.map Phrase.rule)).IsTidy := by
    refine isTidy_firstOf fun r hr => ?_
    obtain ⟨p, hp, rfl⟩ := List.mem_map.1 hr
    exact (table p hp).1.isTidy
  rw [applyPhrases_equationPhrases]
  refine percentOfRule_applyFrom (isTidy_percentOfRule.orElse tidy) (fun h => ?_) ?_ none none text
  · exact (Option.or_eq_none_iff.1 h).1
  · intro b text hit h hmem
    obtain h | ⟨-, h⟩ := Option.or_eq_some_iff.1 h
    · obtain ⟨gap, more, -, -, -, rfl⟩ := percentOfRule_eq_some_iff.1 h
      rfl
    · obtain ⟨r, hr, h⟩ := exists_of_firstOf h
      obtain ⟨p, hp, rfl⟩ := List.mem_map.1 hr
      obtain ⟨-, _, _, -, -, -, rfl⟩ := (phraseRule_eq_some_iff (table p hp).1.isPhrase).1 h
      exact absurd hmem (table p hp).2

/-- **All words of an equation are replaced in one reading.** -/
theorem applyNumerals_applyPhrases_equation (text : List Char) :
    applyNumerals (applyPhrases phrases (applyPhrases equationPhrases text)) =
      percentEquationRule.apply text := by
  rw [applyPhrases, percentOfRule_applyPhrases, applyPhrases, ← List.foldl_append,
    applyNumerals_foldl fits_equation pairwise_avoids]
  exact ((precedes_vocabularyRule fits_equation).apply_orElse isTidy_percentOfRule text).symm

/-- A text without commas has no thousands separators. -/
theorem dropThousands_eq_self {text : List Char} (h : ',' ∉ text) : dropThousands text = text := by
  have same : thousandsRule.apply text = text := by
    refine Rule.apply_of_not_mem (fun b text hit hhit => ?_) h
    obtain ⟨_, _, _, _, _, rfl, -⟩ := thousandsRule_eq_some hhit
    simp
  rw [dropThousands, same, if_neg (lt_irrefl _)]

/-- The equation that a text words, in one reading behind the thousands. -/
theorem toEquation_eq_filter (text : List Char) :
    toEquation text = (dropSpelledX none (percentEquationRule.apply
      (dropThousands (withoutSigns (text.flatMap lower))))).filter isEquationChar := by
  have start : (plain text).flatMap plainPower = withoutSigns (text.flatMap lower) := rfl
  rw [toEquation, start, applyNumerals_applyPhrases_equation]

/-- Without commas and percent signs only the phrases and number words are replaced. -/
theorem toEquation_eq {text : List Char} (commas : ',' ∉ withoutSigns (text.flatMap lower))
    (percents : '%' ∉ withoutSigns (text.flatMap lower)) :
    toEquation text =
      (dropSpelledX none (equationRule.apply (withoutSigns (text.flatMap lower)))).filter
        isEquationChar := by
  have copied : percentOfRule.apply (withoutSigns (text.flatMap lower)) =
      withoutSigns (text.flatMap lower) := by
    refine Rule.apply_of_not_mem (fun b text hit hhit => ?_) percents
    obtain ⟨_, _, rfl, -⟩ := percentOfRule_eq_some_iff.1 hhit
    exact List.mem_cons_self
  rw [toEquation_eq_filter, dropThousands_eq_self commas, percentEquationRule, equationRule,
    (precedes_vocabularyRule fits_equation).apply_orElse isTidy_percentOfRule, copied]

/-! ## One symbol after the other -/

/-- A text with no `x` that stands by a small letter is copied. -/
theorem dropSpelledX_append {a rest : List Char} {prev : Option Char}
    (h : ∀ pre post, a = pre ++ 'x' :: post → (pre.getLast?.or prev).any Char.isLower = false ∧
      (post ++ rest).head?.any Char.isLower = false) :
    dropSpelledX prev (a ++ rest) = a ++ dropSpelledX (a.getLast?.or prev) rest := by
  induction a generalizing prev with
  | nil => rfl
  | cons c a ih =>
    have kept : ¬(c = 'x' ∧ (prev.any Char.isLower || (a ++ rest).head?.any Char.isLower) = true) := by
      rintro ⟨rfl, hx⟩
      obtain ⟨before, behind⟩ := h [] a rfl
      have before : prev.any Char.isLower = false := before
      rw [before, behind] at hx
      cases hx
    have hrest := @ih (some c) fun pre post ha =>
      getLast?_cons_or c pre prev ▸ h (c :: pre) post (by rw [ha, List.cons_append])
    rw [List.cons_append, dropSpelledX, hrest, getLast?_cons_or]
    simpa using kept

/-- The part of an equation that is made of a text behind `b`, if what is made of it stands behind
`prev`. -/
def written (b prev : Option Char) (text : List Char) : List Char :=
  (dropSpelledX prev (equationRule.applyFrom b 0 text)).filter isEquationChar

/-- A phrase that no other one starts like is replaced by its own symbols. -/
theorem Phrase.IsAlone.equationRule_eq {p : Phrase} (alone : p.IsAlone)
    (hp : p ∈ equationVocabulary) {b : Option Char} {a rest : List Char} (hb : opensWord b = true)
    (ha : Spelled p.spoken a) (hrest : goesOn rest = false) :
    equationRule b (a ++ rest) = some ⟨a.length, p.symbols.toList⟩ := by
  have fits := fits_equation p hp
  have found : p.rule b (a ++ rest) = some ⟨a.length, p.symbols.toList⟩ :=
    (phraseRule_eq_some_iff fits.isPhrase).2 ⟨hb, a, rest, rfl, ha, hrest, rfl⟩
  refine firstOf_eq_some (List.mem_map_of_mem hp) found fun r hr other hother => ?_
  obtain ⟨q, hq, rfl⟩ := List.mem_map.1 hr
  have head := ((fits_equation q hq).head?_spoken hother).trans (fits.head?_spoken found).symm
  obtain ⟨hspoken, hsymbols⟩ := alone q hq head
  have same : q.rule = p.rule := by rw [Phrase.rule, Phrase.rule, hspoken, hsymbols]
  rw [same, found] at hother
  exact (Option.some.inj hother).symm

theorem head?_any_isLower {text : List Char} (h : goesOn text = false) :
    text.head?.any Char.isLower = false := by
  cases text with
  | nil => rfl
  | cons c text => exact isLower_eq_false_of_not_isWord h

/-- **One symbol is read**, wherever a word may start. -/
theorem exists_written_symbol {s : Symbol} {text rest : List Char} {b prev : Option Char}
    (h : s.IsPlain text) (hb : opensWord b = true) (hprev : prev.any Char.isLower = false)
    (hrest : goesOn rest = false) :
    ∃ b' prev', written b prev (text ++ rest) = s.canonical ++ written b' prev' rest := by
  cases h with
  | canonical =>
    have copied : equationRule.applyFrom b 0 (s.canonical ++ rest) =
        s.canonical ++ equationRule.applyFrom (s.canonical.getLast?.or b) 0 rest := by
      refine Rule.applyFrom_append fun pre c post hsplit => ?_
      cases hc : c.isLower with
      | false => exact vocabularyRule_eq_none fits_equation hc
      | true =>
        obtain ⟨rfl, rfl, rfl⟩ := Symbol.canonical_of_isLower hsplit hc
        have word : leadingWord ('x' :: rest) = ['x'] :=
          (leadingWord_eq_iff (by decide)).2 ⟨rest, rfl, hrest⟩
        exact vocabularyRule_of_leadingWord fits_equation (by decide +kernel) word
    have behind := head?_any_isLower
      (isTidy_equationRule.goesOn_applyFrom (b := s.canonical.getLast?.or b) hrest)
    refine ⟨s.canonical.getLast?.or b, s.canonical.getLast?.or prev, ?_⟩
    rw [written, copied, dropSpelledX_append fun pre post hsplit => ?_, List.filter_append,
      s.filter_canonical, written]
    obtain ⟨rfl, -, rfl⟩ := Symbol.canonical_of_isLower hsplit rfl
    exact ⟨hprev, behind⟩
  | @phrase p _ hp alone hsigns spelled =>
    have hit := alone.equationRule_eq hp hb spelled hrest
    have fits := fits_equation p hp
    obtain ⟨c, cs, rfl, -⟩ := spelled.exists_cons fits.isPhrase
    have kept : p.symbols.toList.filter isEquationChar = s.canonical := by
      rw [← s.filter_canonical, ← hsigns, Phrase.signs, List.filter_filter]
      refine List.filter_congr fun d _ => ?_
      cases hd : isEquationChar d with
      | true => rw [isBlank_eq_false_of_isEquationChar hd]; rfl
      | false => rfl
    have no_letter (pre post : List Char) : p.symbols.toList ≠ pre ++ 'x' :: post := fun hsplit =>
      absurd (fits.isSymbols.no_letter 'x' (by rw [hsplit]; simp)) (by decide)
    refine ⟨(c :: cs).getLast?.or b, p.symbols.toList.getLast?.or prev, ?_⟩
    rw [written, Rule.applyFrom_take hit rfl (by simp),
      dropSpelledX_append fun pre post hsplit => absurd hsplit (no_letter pre post),
      List.filter_append, kept, written]

theorem filter_eq_nil_of_blank {gap : List Char} (blank : gap.all isBlank = true) :
    gap.filter isEquationChar = [] := by
  refine List.filter_eq_nil_iff.2 fun c hc hchar => ?_
  have := List.all_eq_true.1 blank c hc
  rw [isBlank_eq_false_of_isEquationChar hchar] at this
  cases this

/-- Blanks are passed over. -/
theorem written_gap {gap : List Char} (blank : gap.all isBlank = true) (b prev : Option Char)
    (rest : List Char) :
    written b prev (gap ++ rest) = written (gap.getLast?.or b) (gap.getLast?.or prev) rest := by
  have no_letter (pre post : List Char) : gap ≠ pre ++ 'x' :: post := by
    rintro rfl
    exact absurd (List.all_eq_true.1 blank 'x' (by simp)) (by decide)
  rw [written, isTidy_equationRule.applyFrom_gap blank,
    dropSpelledX_append fun pre post h => absurd h (no_letter pre post), List.filter_append,
    filter_eq_nil_of_blank blank, written, List.nil_append]

/-- A row of symbols is read. The induction is on the row, whose words all start behind a blank. -/
theorem written_spaced {ss : List Symbol} {text : List Char} (h : Spaced Symbol.IsPlain ss text)
    {b prev : Option Char} (hb : opensWord b = true) (hprev : prev.any Char.isLower = false) :
    written b prev text = ss.flatMap Symbol.canonical := by
  induction h generalizing b prev with
  | nil => rfl
  | @single s text h =>
    have ends : goesOn [] = false := rfl
    obtain ⟨b', prev', hsymbol⟩ := exists_written_symbol h hb hprev ends
    rw [List.append_nil] at hsymbol
    rw [hsymbol, List.flatMap_singleton]
    exact List.append_nil _
  | @cons s t ss text gap rest h ne_nil blank _ ih =>
    have ends : goesOn (gap ++ rest) = false := goesOn_of_blank ne_nil blank
    obtain ⟨b', prev', hsymbol⟩ := exists_written_symbol h hb hprev ends
    obtain ⟨c, hc, hblank⟩ := exists_getLast?_of_blank ne_nil blank
    have opens : opensWord (some c) = true := by
      simp [opensWord, isWord_eq_false_of_isBlank hblank]
    have no_letter : (some c).any Char.isLower = false := isLower_eq_false_of_isBlank hblank
    rw [hsymbol, written_gap blank, hc, Option.some_or, Option.some_or,
      ih opens no_letter]
    exact List.flatMap_cons.symm

/-- **The spelling of an equation does not matter.** Symbols in whatever spelling and case, with
blanks between them, give the equation of their canonical forms. -/
theorem toEquation_spelled {ss : List Symbol} {text : List Char}
    (h : Spaced Symbol.IsWritten ss text) : toEquation text = ss.flatMap Symbol.canonical := by
  have commas : ',' ∉ withoutSigns (text.flatMap lower) := fun hmem =>
    absurd (h.plain.of_mem hmem) (by decide)
  have percents : '%' ∉ withoutSigns (text.flatMap lower) := fun hmem =>
    absurd (h.plain.of_mem hmem) (by decide)
  rw [toEquation_eq commas percents]
  exact written_spaced h.plain rfl rfl

theorem isDecimal_three : IsDecimal "3".toList ⟨['3'], []⟩ :=
  .whole (by decide) (by decide)

theorem isDecimal_two_point_five : IsDecimal "2.5".toList ⟨['2'], ['5']⟩ :=
  @IsDecimal.point ['2'] ['5'] (by decide) (by decide) (by decide)

theorem spelled_is_equal_to :
    Spelled (["is", "equal", "to"].map String.toList) "is equal\tto".toList :=
  @Spelled.cons "is".toList [' '] _ _ (by decide) (by decide)
    (@Spelled.cons "equal".toList ['\t'] _ _ (by decide) (by decide) (.last _))

theorem toEquation_spelled_quadratic :
    Spaced Symbol.IsWritten [.unknown, .square, .operator .minus, .decimal "3".toList isDecimal_three,
        .operator .times, .unknown, .equals, .decimal "2.5".toList isDecimal_two_point_five]
      "X Squared minus THREE × x Is Equal\tto 2.5".toList ∧
    toEquation "X Squared minus THREE × x Is Equal\tto 2.5".toList = "x^2-3*x=2.5".toList := by
  have way {s : Symbol} {text spelling : List Char} (h : s.Spelling spelling)
      (hlower : text.flatMap lower = spelling) : s.IsWritten text := by
    rw [Symbol.IsWritten, hlower]
    exact h
  have next {s t : Symbol} {ss : List Symbol} {text rest : List Char} (h : s.IsWritten text)
      (hrest : Spaced Symbol.IsWritten (t :: ss) rest) :
      Spaced Symbol.IsWritten (s :: t :: ss) (text ++ (' ' :: rest)) :=
    @Spaced.cons _ s t ss text [' '] rest h (by decide) (by decide) hrest
  have word {s : Symbol} (w : String) (mem : (s, [w]) ∈ wordings) : s.Spelling w.toList :=
    .words mem (.last _)
  have capital : Symbol.unknown.IsWritten "X".toList := way (.canonical _) (by decide)
  have squared : Symbol.square.IsWritten "Squared".toList :=
    way (word "squared" (by simp [wordings])) (by decide)
  have less : (Symbol.operator .minus).IsWritten "minus".toList :=
    way (word "minus" (by simp [wordings])) (by decide)
  have three : (Symbol.decimal "3".toList isDecimal_three).IsWritten "THREE".toList :=
    way (@Symbol.Spelling.number "three" "3" _ (by decide) _) (by decide)
  have cross : (Symbol.operator .times).IsWritten "×".toList := way .timesSign (by decide)
  have small : Symbol.unknown.IsWritten "x".toList := way (.canonical _) (by decide)
  have same : Symbol.equals.IsWritten "Is Equal\tto".toList :=
    way (.words (by simp [wordings]) spelled_is_equal_to) (by decide)
  have half : (Symbol.decimal "2.5".toList isDecimal_two_point_five).IsWritten "2.5".toList :=
    way (.canonical _) (by decide)
  have spaced := next capital (next squared (next less (next three (next cross (next small
    (next same (.single half)))))))
  exact ⟨spaced, toEquation_spelled spaced⟩

end Reckoner.Wording
