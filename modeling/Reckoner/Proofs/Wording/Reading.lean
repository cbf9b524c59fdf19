import Mathlib.Data.List.MinMax
import Reckoner.Proofs.Wording.Rules
import Reckoner.Proofs.Wording.Thousands

/-!
# What a calculation says

A text is read once from left to right, and every place of it contributes to a calculation what it
says by itself (`reading`): a phrase or a number word, a sign, a digit or nothing. Nothing of what
has been contributed is read again. The passes write what the reading has (`passed_eq_reading`).
-/

namespace Reckoner.Wording

open Text Unicode

/-! ## The reading -/

/-- The phrases and the number words that a text starts with, up to where a word ends. -/
def spokenAt (text : List Char) : List Hit :=
  (phrases ++ numeralPhrases).filterMap fun p => (wordsLength p.spoken text).map (⟨·, p.signs⟩)

/-- What a character says by itself, with the text before it, read backwards, and behind it: a word
`of` behind a percent sign and a lone `x` between other things are stars. -/
def signAt (before : List Char) (c : Char) (after : List Char) : Hit :=
  if (before.dropWhile isBlank).head? = some '%' ∧ leadingWord (c :: after) = "of".toList then
    ⟨2, ['*']⟩
  else if c = 'x' ∧ before.head?.any isAlphabetic = false ∧ after.head?.any isAlphabetic = false ∧
      before.any (!isBlank ·) ∧ after.any (!isBlank ·) then
    ⟨1, ['*']⟩
  else ⟨1, if isExpressionChar c then [c] else []⟩

/-- What a place of a text says: the longest phrase or number word that starts a word there, else
the character by itself. -/
def contribution (before : List Char) (c : Char) (after : List Char) : Hit :=
  (if opensWord before.head? then (spokenAt (c :: after)).argmax Hit.length else none).getD
    (signAt before c after)

/-- What a text says behind `before`, read backwards, if its first `taken` characters are spoken
for. -/
def reading : List Char → ℕ → List Char → List Char
  | _, _, [] => []
  | before, taken + 1, c :: cs => reading (c :: before) taken cs
  | before, 0, c :: cs =>
    let place := contribution before c cs
    place.replacement ++ reading (c :: before) (place.length - 1) cs

theorem reading_skip (before a rest : List Char) :
    reading before a.length (a ++ rest) = reading (a.reverse ++ before) 0 rest := by
  induction a generalizing before with
  | nil => rfl
  | cons c a ih => rw [List.length_cons, List.cons_append, reading, ih, List.reverse_cons,
      List.append_assoc, List.singleton_append]

/-- One place is read. -/
theorem reading_cons {before a rest : List Char} {c : Char} {place : Hit}
    (h : contribution before c (a ++ rest) = place) (hlength : place.length = a.length + 1) :
    reading before 0 (c :: (a ++ rest)) =
      place.replacement ++ reading (a.reverse ++ c :: before) 0 rest := by
  rw [reading, h, hlength, Nat.add_sub_cancel, reading_skip]

theorem reading_single {before rest said : List Char} {c : Char}
    (h : contribution before c rest = ⟨1, said⟩) :
    reading before 0 (c :: rest) = said ++ reading (c :: before) 0 rest :=
  @reading_cons before [] rest c _ h rfl

/-! ## Phrases and number words -/

/-- A hit whose replacement is written without blanks. -/
def solid (hit : Hit) : Hit := ⟨hit.length, hit.replacement.filter (!isBlank ·)⟩

/-- Of two phrases that start with the same word, the later one is this word alone. -/
theorem pairwise_longest : (phrases ++ numeralPhrases).Pairwise fun p q =>
    p.spoken.head? = q.spoken.head? → q.spoken.tail = [] := by
  decide +kernel

theorem argmax_eq_head? {α β : Type} [LinearOrder β] {f : α → β} {l : List α}
    (h : l.Pairwise fun a b => f b ≤ f a) : l.argmax f = l.head? := by
  cases l with
  | nil => rfl
  | cons a l =>
    rw [List.argmax_cons, List.head?_cons]
    cases hmax : l.argmax f with
    | none => rfl
    | some b => exact if_neg (List.rel_of_pairwise_cons h (List.argmax_mem hmax)).not_gt

/-- The first phrase of the list is the longest one. -/
theorem argmax_spokenAt (text : List Char) :
    (spokenAt text).argmax Hit.length = (spokenAt text).head? := by
  refine argmax_eq_head? (List.pairwise_filterMap.2 (pairwise_longest.imp_of_mem ?_))
  intro p q hp hq h hit hhit hit' hhit'
  obtain ⟨n, hn, rfl⟩ := Option.map_eq_some_iff.1 hhit
  obtain ⟨m, hm, rfl⟩ := Option.map_eq_some_iff.1 hhit'
  obtain ⟨v, vs, hv⟩ := List.exists_cons_of_ne_nil (fits_expression p hp).isPhrase.ne_nil
  obtain ⟨w, ws, hw⟩ := List.exists_cons_of_ne_nil (fits_expression q hq).isPhrase.ne_nil
  rw [hv] at hn h
  rw [hw] at hm h
  obtain ⟨rfl, hle⟩ := of_wordsLength_cons hn
  obtain ⟨rfl, -⟩ := of_wordsLength_cons hm
  obtain rfl : ws = [] := h rfl
  rw [wordsLength, if_pos rfl] at hm
  cases hm
  exact hle

theorem firstOf_map_rule (table : List Phrase) (b : Option Char) (text : List Char) :
    firstOf (table.map Phrase.rule) b text = if opensWord b then
      table.findSome? fun p => (wordsLength p.spoken text).map (⟨·, p.symbols.toList⟩) else none := by
  induction table with
  | nil => simp [firstOf]
  | cons p table ih =>
    rw [List.map_cons, firstOf, Rule.orElse, ih, Phrase.rule, phraseRule]
    split
    · rw [List.findSome?_cons]
      cases wordsLength p.spoken text <;> rfl
    · rfl

/-- What the place of a phrase says is what is written for it. -/
theorem spokenAt_eq (b : Option Char) (text : List Char) :
    (if opensWord b then (spokenAt text).argmax Hit.length else none) =
      (vocabularyRule phrases b text).map solid := by
  rw [vocabularyRule, firstOf_map_rule]
  split
  · rw [argmax_spokenAt, spokenAt, List.head?_filterMap, List.map_findSome?]
    congr 1
    funext p
    rw [Function.comp_apply, Option.map_map]
    rfl
  · rfl

theorem contribution_eq (before : List Char) (c : Char) (after : List Char) :
    contribution before c after =
      ((vocabularyRule phrases before.head? (c :: after)).map solid).getD
        (signAt before c after) := by
  rw [contribution, spokenAt_eq]

/-! ## The stars -/

/-- A text without an `x` is copied. -/
theorem applyCrosses_append {a : List Char} (ha : ∀ c ∈ a, c.isLower = false) (b : Option Char)
    (started : Bool) (rest : List Char) :
    applyCrosses b started (a ++ rest) =
      a ++ applyCrosses (a.getLast?.or b) (started || a.any (!isBlank ·)) rest := by
  induction a generalizing b started with
  | nil => simp
  | cons c a ih =>
    have hx : c ≠ 'x' := by
      rintro rfl
      exact absurd (ha 'x' List.mem_cons_self) (by decide)
    rw [List.cons_append, applyCrosses, ih fun d hd => ha d (List.mem_cons_of_mem _ hd),
      getLast?_cons_or, List.any_cons, Bool.or_assoc]
    simp [hx]

/-- What the passes behind the phrases give for a text behind `before`, read backwards, that is
read behind `b`. -/
def passed (b : Option Char) (before text : List Char) : List Char :=
  (applyCrosses b (before.any (!isBlank ·)) (expressionRule.applyFrom before.head? 0 text)).filter
    isExpressionChar

/-- What is written for a part of the text is kept. -/
theorem passed_take {b : Option Char} {before a rest : List Char} {hit : Hit}
    (h : expressionRule before.head? (a ++ rest) = some hit) (hlength : hit.length = a.length)
    (hne : a ≠ []) (solid : a.any (!isBlank ·) = true) :
    ∃ b', passed b before (a ++ rest) =
      hit.replacement.filter isExpressionChar ++ passed b' (a.reverse ++ before) rest := by
  refine ⟨hit.replacement.getLast?.or b, ?_⟩
  obtain ⟨d, hd, hblank⟩ := isTidy_expressionRule.not_blank h
  have written : hit.replacement.any (!isBlank ·) = true :=
    List.any_eq_true.2 ⟨d, hd, by rw [hblank]; rfl⟩
  have read : (a.reverse ++ before).any (!isBlank ·) = true := by simp [solid]
  have head : (a.reverse ++ before).head? = a.getLast?.or before.head? := by simp
  rw [passed, Rule.applyFrom_take h hlength hne,
    applyCrosses_append (isTidy_expressionRule.no_letter h), written, List.filter_append,
    passed, read, head, Bool.or_true]

theorem isBlank_eq_false_of_isExpressionChar {c : Char} (h : isExpressionChar c = true) :
    isBlank c = false :=
  isBlank_eq_false_of_isDigit_or_mem (by decide) h

/-! ## One reading -/

/-- No phrase starts with the word `of`. -/
theorem vocabularyRule_of {b : Option Char} {text : List Char}
    (h : leadingWord text = "of".toList) : vocabularyRule phrases b text = none :=
  vocabularyRule_of_leadingWord fits_expression (by decide +kernel) h

theorem contribution_of_none {before : List Char} {c : Char} {after : List Char}
    (h : vocabularyRule phrases before.head? (c :: after) = none) :
    contribution before c after = signAt before c after := by
  rw [contribution_eq, h]
  rfl

theorem leadingWord_of_not_isWord {c : Char} (cs : List Char) (h : isWord c = false) :
    leadingWord (c :: cs) = [] := by
  simp [leadingWord, h]

/-- Blanks say nothing. -/
theorem reading_gap {gap : List Char} (blank : gap.all isBlank = true) (before rest : List Char) :
    reading before 0 (gap ++ rest) = reading (gap.reverse ++ before) 0 rest := by
  induction gap generalizing before with
  | nil => rfl
  | cons c gap ih =>
    rw [List.all_cons, Bool.and_eq_true] at blank
    have silent : contribution before c (gap ++ rest) = ⟨1, []⟩ := by
      have hword := isWord_eq_false_of_isBlank blank.1
      have hx : c ≠ 'x' := by
        rintro rfl
        exact absurd blank.1 (by decide)
      have hchar : isExpressionChar c = false := Bool.eq_false_iff.2 fun h => by
        rw [isBlank_eq_false_of_isExpressionChar h] at blank
        cases blank.1
      rw [contribution_of_none (vocabularyRule_eq_none fits_expression (isLower_eq_false_of_not_isWord hword))]
      simp [signAt, leadingWord_of_not_isWord _ hword, hx, hchar]
    rw [List.cons_append, reading_single silent, ih blank.2, List.reverse_cons, List.append_assoc,
      List.singleton_append, List.nil_append]

/-- A percent sign and a word `of` behind it say two signs. -/
theorem reading_percent_of {gap rest : List Char} (blank : gap.all isBlank = true)
    (hrest : goesOn rest = false) (before : List Char) :
    reading before 0 ('%' :: (gap ++ ("of".toList ++ rest))) =
      '%' :: '*' :: reading (('%' :: (gap ++ "of".toList)).reverse ++ before) 0 rest := by
  have percent : contribution before '%' (gap ++ ("of".toList ++ rest)) = ⟨1, ['%']⟩ := by
    have hword : isWord '%' = false := by decide
    rw [contribution_of_none (vocabularyRule_eq_none fits_expression rfl)]
    simp [signAt, leadingWord_of_not_isWord _ hword, isExpressionChar]
  have star : contribution (gap.reverse ++ '%' :: before) 'o' (['f'] ++ rest) = ⟨2, ['*']⟩ := by
    have word : leadingWord ('o' :: (['f'] ++ rest)) = "of".toList :=
      (leadingWord_eq_iff (by decide)).2 ⟨rest, rfl, hrest⟩
    have behind : ((gap.reverse ++ '%' :: before).dropWhile isBlank).head? = some '%' := by
      have hblank : isBlank '%' = false := by decide
      rw [List.dropWhile_append_of_pos (by simpa using blank)]
      simp [hblank]
    rw [contribution_of_none (vocabularyRule_of word), signAt, if_pos ⟨behind, word⟩]
  calc reading before 0 ('%' :: (gap ++ ("of".toList ++ rest)))
      = '%' :: reading ('%' :: before) 0 (gap ++ ("of".toList ++ rest)) := reading_single percent
    _ = '%' :: reading (gap.reverse ++ '%' :: before) 0 ('o' :: (['f'] ++ rest)) := by
      rw [reading_gap blank]
      rfl
    _ = _ := by
      rw [reading_cons star rfl]
      simp

/-- Where a text has no word `of` to be read behind a percent sign. -/
def Settled (before text : List Char) : Prop :=
  (before.dropWhile isBlank).head? = some '%' → leadingWord (text.dropWhile isBlank) ≠ "of".toList

theorem settled_of_head {c : Char} {before text : List Char} (hblank : isBlank c = false)
    (hc : c ≠ '%') : Settled (c :: before) text := by
  intro h
  simp only [List.dropWhile_cons, hblank, Bool.false_eq_true, reduceIte, List.head?_cons,
    Option.some.injEq] at h
  exact absurd h hc

/-- A percent sign that is not replaced has no word `of` behind it. -/
theorem Settled.cons {before cs : List Char} {c : Char} (settled : Settled before (c :: cs))
    (h : percentOfRule before.head? (c :: cs) = none) : Settled (c :: before) cs := by
  cases hc : isBlank c with
  | true => simpa [Settled, List.dropWhile_cons, hc] using settled
  | false =>
    by_cases hpercent : c = '%'
    · subst hpercent
      intro _ word
      rw [percentOfRule_cons, if_pos word] at h
      cases h
    · exact settled_of_head hc hpercent

theorem signAt_of_settled {before after : List Char} {c : Char}
    (settled : Settled before (c :: after)) : signAt before c after =
      if c = 'x' ∧ before.head?.any isAlphabetic = false ∧ after.head?.any isAlphabetic = false ∧
          before.any (!isBlank ·) ∧ after.any (!isBlank ·) then
        ⟨1, ['*']⟩
      else ⟨1, if isExpressionChar c then [c] else []⟩ := by
  refine if_neg fun ⟨percent, word⟩ => ?_
  cases hc : isBlank c with
  | true =>
    rw [leadingWord_of_not_isWord _ (isWord_eq_false_of_isBlank hc)] at word
    cases word
  | false => exact settled percent (by rwa [List.dropWhile_cons_of_neg (by simp [hc])])

/-- Behind a character that is copied the text goes on in the same way. -/
theorem passed_cons {b : Option Char} {before cs : List Char} {c : Char}
    (h : expressionRule before.head? (c :: cs) = none) :
    passed b before (c :: cs) =
      [if c = 'x' && before.any (!isBlank ·) &&
          isLone b (expressionRule.applyFrom (some c) 0 cs).head? && cs.any (!isBlank ·) then '*'
        else c].filter isExpressionChar ++ passed (some c) (c :: before) cs := by
  rw [passed, Rule.applyFrom_copy h, applyCrosses, isTidy_expressionRule.any_applyFrom, passed,
    List.any_cons, Bool.or_comm (!isBlank c), List.head?_cons, ← List.filter_append,
    List.singleton_append]

/-- What the passes write for a character that is copied is what it says by itself. -/
theorem contribution_of_copy {b : Option Char} {before cs : List Char} {c : Char}
    (hb : b = before.head? ∨ isWord c = false) (settled : Settled before (c :: cs))
    (h : vocabularyRule phrases before.head? (c :: cs) = none) :
    contribution before c cs =
      ⟨1, [if c = 'x' && before.any (!isBlank ·) &&
          isLone b (expressionRule.applyFrom (some c) 0 cs).head? && cs.any (!isBlank ·) then '*'
        else c].filter isExpressionChar⟩ := by
  rw [contribution_of_none h, signAt_of_settled settled]
  by_cases hx : c = 'x'
  · subst hx
    have inside : opensWord (some 'x') = false := by decide
    have word : isWord 'x' = true := isWord_of_isLower rfl
    have hb : b = before.head? := hb.resolve_right (by simp [word])
    rw [isTidy_expressionRule.head?_applyFrom_inside inside, hb, isLone]
    cases before.head?.any isAlphabetic <;> cases cs.head?.any isAlphabetic <;>
      cases before.any (!isBlank ·) <;> cases cs.any (!isBlank ·) <;> rfl
  · simp only [hx, false_and, if_false, decide_false, Bool.false_and]
    cases hc : isExpressionChar c <;> simp [hc]

/-- A part of a text that is replaced: what is written for it is what it says. -/
structure Replaced (before text a rest said : List Char) : Prop where
  text_eq : text = a ++ rest
  ne_nil : a ≠ []
  ends : goesOn rest = false
  settled : Settled (a.reverse ++ before) rest
  reading_eq : reading before 0 text = said ++ reading (a.reverse ++ before) 0 rest
  passed_eq (b : Option Char) :
    ∃ b', passed b before text = said ++ passed b' (a.reverse ++ before) rest

theorem exists_replaced_of_percent {before text : List Char} {hit : Hit}
    (h : percentOfRule before.head? text = some hit) :
    ∃ a rest said, Replaced before text a rest said := by
  have both : expressionRule before.head? text = some hit := by
    rw [expressionRule, Rule.orElse, h, Option.some_or]
  obtain ⟨gap, rest, htext, blank, hrest, rfl⟩ := percentOfRule_eq_some_iff.1 h
  have hsplit : text = ('%' :: (gap ++ "of".toList)) ++ rest := by simp [htext]
  refine ⟨_, rest, ['%', '*'], hsplit, by simp, hrest, ?_, ?_, fun b => ?_⟩
  · have : ('%' :: (gap ++ "of".toList)).reverse ++ before =
        'f' :: (['o'] ++ gap.reverse ++ '%' :: before) := by simp
    rw [this]
    exact settled_of_head (by decide) (by decide)
  · rw [htext, reading_percent_of blank hrest]
    rfl
  · have solid : isBlank '%' = false := by decide
    rw [hsplit] at both ⊢
    exact passed_take both (by simp) (by simp) (by simp [solid])

/-- The symbols of phrases and number words are those of calculations, with blanks. -/
theorem filter_symbols : ∀ p ∈ phrases ++ numeralPhrases,
    p.symbols.toList.filter isExpressionChar = p.symbols.toList.filter (!isBlank ·) := by
  decide +kernel

theorem exists_replaced_of_vocabulary {before text : List Char} {hit : Hit}
    (hpercent : percentOfRule before.head? text = none)
    (h : vocabularyRule phrases before.head? text = some hit) :
    ∃ a rest said, Replaced before text a rest said := by
  have both : expressionRule before.head? text = some hit := by
    rw [expressionRule, Rule.orElse, hpercent, Option.none_or, h]
  obtain ⟨p, hp, c, cs, rest, rfl, ha, hrest, rfl⟩ := exists_spelled_of_vocabularyRule fits_expression h
  obtain ⟨d, hd, hlower⟩ := ha.exists_getLast? (fits_expression p hp).isPhrase
  have solid : (c :: cs).any (!isBlank ·) = true := by
    have := isBlank_eq_false_of_isWord (isWord_of_isLower hlower)
    exact List.any_eq_true.2 ⟨d, List.mem_of_getLast? hd, by rw [this]; rfl⟩
  refine ⟨c :: cs, rest, p.signs, rfl, by simp, hrest, ?_, ?_, fun b => ?_⟩
  · obtain ⟨more, hmore⟩ : ∃ more, (c :: cs).reverse ++ before = d :: more := by
      rw [← List.head?_eq_some_iff, List.head?_append, List.head?_reverse, hd, Option.some_or]
    rw [hmore]
    refine settled_of_head (isBlank_eq_false_of_isWord (isWord_of_isLower hlower)) ?_
    rintro rfl
    cases hlower
  · have heard : contribution before c (cs ++ rest) = ⟨cs.length + 1, p.signs⟩ := by
      rw [contribution_eq, ← List.cons_append, h]
      rfl
    rw [List.cons_append, reading_cons heard rfl, List.reverse_cons, List.append_assoc,
      List.singleton_append]
  · have := passed_take (b := b) both rfl (by simp) solid
    rwa [filter_symbols p hp] at this

/-- **The passes are one reading.** The text is read behind `b`, which is the character before it,
unless the passes have replaced this one and no word goes on behind it. The induction is on the
length of the text. -/
theorem passed_eq_reading {b : Option Char} {before text : List Char}
    (hb : b = before.head? ∨ goesOn text = false) (settled : Settled before text) :
    passed b before text = reading before 0 text := by
  induction hn : text.length using Nat.strong_induction_on generalizing b before text with
  | _ n ih =>
    subst hn
    have step {a rest said : List Char} (h : Replaced before text a rest said) :
        passed b before text = reading before 0 text := by
      obtain ⟨b', hpassed⟩ := h.passed_eq b
      have shorter : rest.length < text.length := by
        have := List.length_pos_iff.2 h.ne_nil
        rw [h.text_eq, List.length_append]
        omega
      rw [hpassed, h.reading_eq, ih rest.length shorter (.inr h.ends) h.settled rfl]
    cases hpercent : percentOfRule before.head? text with
    | some hit =>
      obtain ⟨_, _, _, h⟩ := exists_replaced_of_percent hpercent
      exact step h
    | none =>
      cases hvocabulary : vocabularyRule phrases before.head? text with
      | some hit =>
        obtain ⟨_, _, _, h⟩ := exists_replaced_of_vocabulary hpercent hvocabulary
        exact step h
      | none =>
        cases text with
        | nil => rfl
        | cons c cs =>
          have copy : expressionRule before.head? (c :: cs) = none := by
            rw [expressionRule, Rule.orElse, hpercent, hvocabulary, Option.none_or]
          have heard := contribution_of_copy hb settled hvocabulary
          have rest := @ih cs.length (by simp) (some c) (c :: before) cs (.inl rfl)
            (settled.cons hpercent) rfl
          rw [passed_cons copy, rest, reading_single heard]

end Reckoner.Wording
