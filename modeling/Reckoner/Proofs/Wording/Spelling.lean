import Reckoner.Operator
import Reckoner.Proofs.Decimal.Grammar
import Reckoner.Proofs.Wording.Rules

/-!
# The spellings of equations

A symbol of equations can be written in many ways: as it is, by a typographic sign or in words
(`Symbol.Spelling`), in small or capital letters (`Symbol.IsWritten`). A row of symbols is written
one after the other with blanks between them (`Spaced`). Without the capitals and the typographic
signs each symbol is written as it is or is a phrase that no other one starts like
(`Symbol.Spelling.isPlain`).
-/

namespace Reckoner.Wording

open Decimal Text Unicode

/-! ## Symbols -/

/-- The symbols of equations. -/
inductive Symbol
  | decimal {d : Digits} (text : List Char) (h : IsDecimal text d)
  | unknown
  | operator (op : Operator)
  | opening
  | closing
  | equals
  | square
  | cube

/-- How a symbol stands in an equation. -/
def Symbol.canonical : Symbol → List Char
  | .decimal text _ => text
  | .unknown => ['x']
  | .operator op => [op.symbol]
  | .opening => ['(']
  | .closing => [')']
  | .equals => ['=']
  | .square => ['^', '2']
  | .cube => ['^', '3']

/-- The words for symbols that are no numbers. -/
def wordings : List (Symbol × List String) := [
  (.operator .plus, ["plus"]),
  (.operator .minus, ["minus"]), (.operator .minus, ["negative"]),
  (.operator .times, ["times"]), (.operator .times, ["into"]),
  (.operator .times, ["multiplied", "by"]),
  (.operator .over, ["over"]), (.operator .over, ["divided", "by"]),
  (.opening, ["open", "bracket"]), (.closing, ["close", "bracket"]),
  (.equals, ["equals"]), (.equals, ["equal", "to"]), (.equals, ["is", "equal", "to"]),
  (.square, ["squared"]), (.cube, ["cubed"])]

/-- The ways to spell a symbol in small letters. -/
inductive Symbol.Spelling : Symbol → List Char → Prop
  | canonical (s : Symbol) : Spelling s s.canonical
  | minusSign : Spelling (.operator .minus) ['−']
  | timesSign : Spelling (.operator .times) ['×']
  | overSign : Spelling (.operator .over) ['÷']
  | squareSign : Spelling .square ['²']
  | cubeSign : Spelling .cube ['³']
  | words {s : Symbol} {ws : List String} {text : List Char} (mem : (s, ws) ∈ wordings)
    (spelled : Spelled (ws.map String.toList) text) : Spelling s text
  | number {word digits : String} {d : Digits} (mem : (word, digits) ∈ numerals)
    (h : IsDecimal digits.toList d) : Spelling (.decimal digits.toList h) word.toList

/-- A text is a spelling of a symbol, in whatever case its letters are. -/
def Symbol.IsWritten (s : Symbol) (text : List Char) : Prop := s.Spelling (text.flatMap lower)

/-- Symbols written one after the other, each in one of its ways, with blanks between them. -/
inductive Spaced (way : Symbol → List Char → Prop) : List Symbol → List Char → Prop
  | nil : Spaced way [] []
  | single {s : Symbol} {text : List Char} (h : way s text) : Spaced way [s] text
  | cons {s t : Symbol} {ss : List Symbol} {text gap rest : List Char} (h : way s text)
    (ne_nil : gap ≠ []) (blank : gap.all isBlank = true) (hrest : Spaced way (t :: ss) rest) :
    Spaced way (s :: t :: ss) (text ++ (gap ++ rest))

/-! ## The vocabulary of equations -/

/-- The phrases and number words that are replaced in an equation. -/
def equationVocabulary : List Phrase := equationPhrases ++ phrases ++ numeralPhrases

/-- A phrase that no other one of the vocabulary starts like. -/
def Phrase.IsAlone (p : Phrase) : Prop :=
  ∀ q ∈ equationVocabulary, q.spoken.head? = p.spoken.head? →
    q.spoken = p.spoken ∧ q.symbols = p.symbols

instance (p : Phrase) : Decidable p.IsAlone :=
  inferInstanceAs (Decidable (∀ q ∈ equationVocabulary, q.spoken.head? = p.spoken.head? →
    q.spoken = p.spoken ∧ q.symbols = p.symbols))

theorem exists_phrase_of_wordings : ∀ e ∈ wordings, ∃ p ∈ equationVocabulary,
    p.spoken = e.2.map String.toList ∧ p.signs = e.1.canonical ∧ p.IsAlone := by
  decide +kernel

theorem exists_phrase_of_numerals : ∀ e ∈ numerals, ∃ p ∈ equationVocabulary,
    p.spoken = [e.1.toList] ∧ p.signs = e.2.toList ∧ p.IsAlone := by
  decide +kernel

/-- A symbol as it is, or a phrase for it. -/
inductive Symbol.IsPlain : Symbol → List Char → Prop
  | canonical (s : Symbol) : IsPlain s s.canonical
  | phrase {s : Symbol} {p : Phrase} {text : List Char} (mem : p ∈ equationVocabulary)
    (alone : p.IsAlone) (signs : p.signs = s.canonical) (spelled : Spelled p.spoken text) :
    IsPlain s text

/-- The characters of symbols: none but the unknown is a letter. -/
theorem Symbol.of_mem_canonical {s : Symbol} {c : Char} (h : c ∈ s.canonical) :
    isEquationChar c = true ∧ (c.isLower = true → s.canonical = ['x']) := by
  have of_not_lower (hchar : isEquationChar c = true) (hlower : c.isLower = false) :
      isEquationChar c = true ∧ (c.isLower = true → s.canonical = ['x']) :=
    ⟨hchar, fun h => by rw [hlower] at h; cases h⟩
  cases s with
  | decimal text hd =>
    have := hd.isLiteralChar h
    rw [isLiteralChar, Bool.or_eq_true, decide_eq_true_eq] at this
    obtain digit | rfl := this
    · exact of_not_lower (by rw [isEquationChar, digit, Bool.true_or])
        (isLower_eq_false_of_isDigit (isDigit_of_isDigit digit))
    · exact of_not_lower rfl rfl
  | unknown =>
    cases List.mem_singleton.1 h
    exact ⟨rfl, fun _ => rfl⟩
  | operator op => cases op <;> cases List.mem_singleton.1 h <;> exact of_not_lower rfl rfl
  | opening | closing | equals =>
    cases List.mem_singleton.1 h
    exact of_not_lower rfl rfl
  | square | cube =>
    obtain rfl | h := List.mem_cons.1 h
    · exact of_not_lower rfl rfl
    · cases List.mem_singleton.1 h
      exact of_not_lower rfl rfl

theorem Symbol.canonical_of_isLower {s : Symbol} {pre post : List Char} {c : Char}
    (h : s.canonical = pre ++ c :: post) (hc : c.isLower = true) :
    pre = [] ∧ c = 'x' ∧ post = [] := by
  rw [(of_mem_canonical (by rw [h]; simp)).2 hc] at h
  cases pre with
  | nil =>
    cases h
    exact ⟨rfl, rfl, rfl⟩
  | cons d pre => simp at h

theorem Symbol.filter_canonical (s : Symbol) : s.canonical.filter isEquationChar = s.canonical :=
  List.filter_eq_self.2 fun _ h => (of_mem_canonical h).1

/-- No sign of an equation is a blank. -/
theorem isBlank_eq_false_of_isEquationChar {c : Char} (h : isEquationChar c = true) :
    isBlank c = false :=
  isBlank_eq_false_of_isDigit_or_mem (by decide) h

/-! ## Typographic signs -/

/-- A text without typographic signs. -/
def withoutSigns (text : List Char) : List Char := (text.map plainSign).flatMap plainPower

theorem withoutSigns_append (text more : List Char) :
    withoutSigns (text ++ more) = withoutSigns text ++ withoutSigns more := by
  simp [withoutSigns]

/-- A character that is no typographic sign stays. -/
theorem withoutSigns_singleton_of_not_mem {c : Char} (hc : c ∉ ['×', '÷', '−', '²', '³']) :
    withoutSigns [c] = [c] := by
  simp only [List.mem_cons, List.not_mem_nil, or_false, not_or] at hc
  obtain ⟨cross, obelus, dash, two, three⟩ := hc
  simp [withoutSigns, plainSign, plainPower]

/-- The characters of equations, small letters and blanks stay. -/
theorem withoutSigns_eq_self {text : List Char}
    (h : ∀ c ∈ text, isEquationChar c = true ∨ c.isLower = true ∨ isBlank c = true) :
    withoutSigns text = text := by
  have signs : ['×', '÷', '−', '²', '³'].all
      (fun d => !(isEquationChar d || d.isLower || isBlank d)) = true := by
    decide
  induction text with
  | nil => rfl
  | cons c text ih =>
    have hc : c ∉ ['×', '÷', '−', '²', '³'] := fun hmem => by
      have none_of := List.all_eq_true.1 signs c hmem
      simp only [Bool.not_eq_true', Bool.or_eq_false_iff] at none_of
      simpa [none_of] using h c List.mem_cons_self
    rw [← List.singleton_append, withoutSigns_append, withoutSigns_singleton_of_not_mem hc,
      ih fun d hd => h d (List.mem_cons_of_mem _ hd)]

/-! ## Spellings in an equation -/

theorem withoutSigns_spelled {ws : List (List Char)} {text : List Char} (h : Spelled ws text)
    (hws : IsPhrase ws) : withoutSigns text = text :=
  withoutSigns_eq_self fun c hc => .inr (h.isLower_or_isBlank hws.all_isLower c hc)

theorem fits_equation : ∀ p ∈ equationVocabulary, p.Fits := fits_of_mem

/-- Without typographic signs a symbol is written as it is or as a phrase. -/
theorem Symbol.Spelling.isPlain {s : Symbol} {text : List Char} (h : s.Spelling text) :
    s.IsPlain (withoutSigns text) := by
  cases h with
  | canonical =>
    rw [withoutSigns_eq_self fun c hc => .inl (of_mem_canonical hc).1]
    exact .canonical s
  | minusSign | timesSign | overSign | squareSign | cubeSign => exact .canonical _
  | words mem spelled =>
    obtain ⟨p, hp, hspoken, hsigns, alone⟩ := exists_phrase_of_wordings _ mem
    rw [← hspoken] at spelled
    rw [withoutSigns_spelled spelled (fits_equation p hp).isPhrase]
    exact .phrase hp alone hsigns spelled
  | @number word digits _ mem h =>
    obtain ⟨p, hp, hspoken, hsigns, alone⟩ := exists_phrase_of_numerals _ mem
    have spelled : Spelled p.spoken word.toList := hspoken ▸ .last _
    rw [withoutSigns_spelled spelled (fits_equation p hp).isPhrase]
    exact .phrase hp alone hsigns spelled

/-- Blanks have no capitals. -/
theorem lower_of_isBlank {c : Char} (h : isBlank c = true) : lower c = [c] := by
  have codes : ∀ n ∈ whiteSpace.codes, caseRuns.lowerCode n = n := by decide +kernel
  have hne : c ≠ '\u0130' := by
    rintro rfl
    exact absurd h (by decide)
  rw [lower, if_neg hne, codes _ (Ranges.mem_codes_iff.2 h), Char.ofNat_toNat]

theorem flatMap_lower_of_blank {gap : List Char} (blank : gap.all isBlank = true) :
    gap.flatMap lower = gap := by
  induction gap with
  | nil => rfl
  | cons c gap ih =>
    rw [List.all_cons, Bool.and_eq_true] at blank
    rw [List.flatMap_cons, lower_of_isBlank blank.1, ih blank.2, List.singleton_append]

/-- **Without capitals and typographic signs** the symbols of a text are written in the same order
with the same blanks between them. -/
theorem Spaced.plain {ss : List Symbol} {text : List Char} (h : Spaced Symbol.IsWritten ss text) :
    Spaced Symbol.IsPlain ss (withoutSigns (text.flatMap lower)) := by
  induction h with
  | nil => exact .nil
  | single h => exact .single (Symbol.Spelling.isPlain h)
  | cons h ne_nil blank _ ih =>
    have gap := withoutSigns_eq_self fun c hc => .inr (.inr (List.all_eq_true.1 blank c hc))
    rw [List.flatMap_append, List.flatMap_append, withoutSigns_append, withoutSigns_append,
      flatMap_lower_of_blank blank, gap]
    exact .cons (Symbol.Spelling.isPlain h) ne_nil blank ih

theorem Symbol.IsPlain.of_mem {s : Symbol} {text : List Char} (h : s.IsPlain text) {c : Char}
    (hc : c ∈ text) : isEquationChar c = true ∨ c.isLower = true ∨ isBlank c = true := by
  cases h with
  | canonical => exact .inl (of_mem_canonical hc).1
  | phrase hp _ _ spelled =>
    exact .inr (spelled.isLower_or_isBlank (fits_equation _ hp).isPhrase.all_isLower c hc)

/-- The characters of a row of symbols. -/
theorem Spaced.of_mem {ss : List Symbol} {text : List Char} (h : Spaced Symbol.IsPlain ss text)
    {c : Char} (hc : c ∈ text) : isEquationChar c = true ∨ c.isLower = true ∨ isBlank c = true := by
  induction h with
  | nil => cases hc
  | single h => exact h.of_mem hc
  | cons h _ blank _ ih =>
    obtain hc | hc | hc := (List.mem_append.1 hc).imp_right List.mem_append.1
    · exact h.of_mem hc
    · exact .inr (.inr (List.all_eq_true.1 blank c hc))
    · exact ih hc

end Reckoner.Wording
