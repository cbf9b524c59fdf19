import Reckoner.Proofs.Text.Phrases
import Reckoner.Wording.Canonical

/-!
# The vocabulary in one reading

The passes over the phrases and the number words of a text are one pass (`vocabularyRule`), since
no phrase starts with a later word of another one that follows it. The pass for `% of` before them
joins it, too (`applyNumerals_applyPhrases`).
-/

namespace Reckoner.Wording

open Text Unicode

/-! ## The rules -/

/-- The words of a phrase. -/
def Phrase.spoken (p : Phrase) : List (List Char) := p.words.map String.toList

/-- The symbols of a phrase, without blanks. -/
def Phrase.signs (p : Phrase) : List Char := p.symbols.toList.filter (!isBlank ·)

/-- The rule that replaces a phrase. -/
def Phrase.rule (p : Phrase) : Rule := phraseRule p.spoken p.symbols.toList

/-- The number words as phrases of one word. -/
def numeralPhrases : List Phrase := numerals.map fun n => ⟨[n.1], " " ++ n.2 ++ " "⟩

/-- A phrase of small letters for symbols that keep words apart. -/
structure Phrase.Fits (p : Phrase) : Prop where
  isPhrase : IsPhrase p.spoken
  isSymbols : IsSymbols p.symbols.toList

/-- A phrase is not the later part of another one. -/
def Phrase.Avoids (p q : Phrase) : Prop := ∀ w ∈ q.spoken.tail, p.spoken.head? ≠ some w

instance (ws : List (List Char)) : Decidable (IsPhrase ws) :=
  decidable_of_iff (ws ≠ [] ∧ (∀ w ∈ ws, w ≠ []) ∧ ∀ w ∈ ws, w.all Char.isLower = true)
    ⟨fun ⟨ne_nil, words, lower⟩ => ⟨ne_nil, words, lower⟩,
      fun h => ⟨h.ne_nil, h.word_ne_nil, h.all_isLower⟩⟩

instance (symbols : List Char) : Decidable (IsSymbols symbols) :=
  decidable_of_iff (goesOn symbols = false ∧ symbols.any Char.isLower = false ∧
      symbols.any (!isBlank ·) = true)
    ⟨fun ⟨start, letters, sign⟩ => ⟨start, by simpa using letters, by simpa using sign⟩,
      fun h => ⟨h.goesOn, by simpa using h.no_letter, by simpa using h.not_blank⟩⟩

instance (p : Phrase) : Decidable p.Fits :=
  decidable_of_iff (IsPhrase p.spoken ∧ IsSymbols p.symbols.toList)
    ⟨fun ⟨words, symbols⟩ => ⟨words, symbols⟩, fun h => ⟨h.isPhrase, h.isSymbols⟩⟩

instance (p q : Phrase) : Decidable (p.Avoids q) :=
  inferInstanceAs (Decidable (∀ w ∈ q.spoken.tail, p.spoken.head? ≠ some w))

theorem fits_of_mem : ∀ p ∈ equationPhrases ++ phrases ++ numeralPhrases, p.Fits := by
  decide +kernel

theorem pairwise_avoids : (equationPhrases ++ phrases).Pairwise Phrase.Avoids := by
  decide +kernel

theorem tail_spoken_numeral : ∀ p ∈ numeralPhrases, p.spoken.tail = [] := by
  decide +kernel

theorem Phrase.Fits.isTidy {p : Phrase} (h : p.Fits) : p.rule.IsTidy :=
  isTidy_phraseRule h.isPhrase h.isSymbols

/-- A phrase is replaced only where its first word stands. -/
theorem Phrase.Fits.head?_spoken {p : Phrase} (h : p.Fits) {b : Option Char} {text : List Char}
    {hit : Hit} (hit_eq : p.rule b text = some hit) :
    p.spoken.head? = some (leadingWord text) := by
  obtain ⟨-, a, rest, rfl, ha, hrest, -⟩ := (phraseRule_eq_some_iff h.isPhrase).1 hit_eq
  obtain ⟨v, vs, hv⟩ := List.exists_cons_of_ne_nil h.isPhrase.ne_nil
  rw [hv] at ha ⊢
  rw [ha.leadingWord_append (hv ▸ h.isPhrase) hrest, List.head?_cons]

theorem Phrase.Fits.rule_eq_none {p : Phrase} (h : p.Fits) {b : Option Char} {text w : List Char}
    (hw : p.spoken.head? ≠ some w) (htext : leadingWord text = w) : p.rule b text = none :=
  Option.eq_none_iff_forall_ne_some.2 fun _ hit_eq => hw (htext ▸ h.head?_spoken hit_eq)

theorem Phrase.Fits.precedes {p q : Phrase} (hp : p.Fits) (hq : q.Fits) (h : p.Avoids q) :
    p.rule.Precedes q.rule :=
  hp.isTidy.precedes_phraseRule hq.isPhrase fun _ _ w hw => hp.rule_eq_none (h w hw)

/-- The pass for the number words is the one for the phrases that they are. -/
theorem numeralRule_eq_firstOf : numeralRule = firstOf (numeralPhrases.map Phrase.rule) := by
  have table (n : List (String × String)) (b : Option Char) (text : List Char) :
      (if opensWord b then
        (n.lookup (String.ofList (leadingWord text))).map fun digits =>
          (⟨(leadingWord text).length, (" " ++ digits ++ " ").toList⟩ : Hit)
      else none) =
        firstOf (n.map fun n => Phrase.rule ⟨[n.1], " " ++ n.2 ++ " "⟩) b text := by
    induction n with
    | nil => simp [firstOf]
    | cons n ns ih =>
      rw [List.map_cons, firstOf, Rule.orElse, ← ih, List.lookup_cons]
      by_cases hword : leadingWord text = n.1.toList
      · simp only [Phrase.rule, Phrase.spoken, phraseRule, List.map_cons, List.map_nil, wordsLength,
          hword, String.ofList_toList, beq_self_eq_true, if_true]
        split <;> simp
      · have hkey : (String.ofList (leadingWord text) == n.1) = false :=
          beq_false_of_ne fun h => hword (by rw [← h, String.toList_ofList])
        simp only [Phrase.rule, Phrase.spoken, phraseRule, List.map_cons, List.map_nil, wordsLength,
          hword, hkey, if_false]
        split <;> simp
  refine funext fun b => funext fun text => (table numerals b text).trans ?_
  rw [numeralPhrases, List.map_map]
  rfl

/-! ## The rule for percent signs before `of` -/

theorem percentOfRule_cons (b : Option Char) (cs : List Char) : percentOfRule b ('%' :: cs) =
    if leadingWord (cs.dropWhile isBlank) = "of".toList then
      some ⟨(cs.takeWhile isBlank).length + 3, "% *".toList⟩
    else none := by
  rw [← drop_length_takeWhile]
  rfl

/-- What the rule takes: a percent sign, blanks and the word. -/
theorem percentOfRule_eq_some_iff {b : Option Char} {text : List Char} {hit : Hit} :
    percentOfRule b text = some hit ↔ ∃ gap rest,
      text = '%' :: (gap ++ ("of".toList ++ rest)) ∧ gap.all isBlank = true ∧ goesOn rest = false ∧
        hit = ⟨gap.length + 3, "% *".toList⟩ := by
  have of_word : "of".toList.all isWord = true := by decide
  constructor
  · intro h
    have start : ∃ cs, text = '%' :: cs := by
      unfold percentOfRule at h
      split at h
      · exact ⟨_, rfl⟩
      · cases h
    obtain ⟨cs, rfl⟩ := start
    rw [percentOfRule_cons] at h
    split at h
    · rename_i hword
      obtain ⟨rest, hrest, hgo⟩ := (leadingWord_eq_iff of_word).1 hword
      cases h
      refine ⟨cs.takeWhile isBlank, rest, ?_, List.all_takeWhile, hgo, rfl⟩
      rw [← hrest, List.takeWhile_append_dropWhile]
    · cases h
  · rintro ⟨gap, rest, rfl, blank, hrest, rfl⟩
    have hend : ("of".toList ++ rest).head?.any isBlank = false := rfl
    have hgap := takeWhile_run blank hend
    rw [percentOfRule_cons, ← drop_length_takeWhile, hgap, List.drop_left,
      if_pos ((leadingWord_eq_iff of_word).2 ⟨rest, rfl, hrest⟩)]

/-- Where a percent sign, blanks and the word stand at the start of both texts, or of none, the same
is taken. -/
theorem percentOfRule_congr {b b' : Option Char} {text text' : List Char}
    (h : ∀ gap : List Char, gap.all isBlank = true →
      ((∃ rest, text = '%' :: (gap ++ "of".toList) ++ rest ∧ goesOn rest = false) ↔
        ∃ rest, text' = '%' :: (gap ++ "of".toList) ++ rest ∧ goesOn rest = false)) :
    percentOfRule b text = percentOfRule b' text' := by
  have place (b : Option Char) (t : List Char) (hit : Hit) : percentOfRule b t = some hit ↔
      ∃ gap, gap.all isBlank = true ∧ hit = ⟨gap.length + 3, "% *".toList⟩ ∧
        ∃ rest, t = '%' :: (gap ++ "of".toList) ++ rest ∧ goesOn rest = false := by
    rw [percentOfRule_eq_some_iff]
    constructor
    · rintro ⟨gap, rest, rfl, blank, hrest, rfl⟩
      exact ⟨gap, blank, rfl, rest, by simp, hrest⟩
    · rintro ⟨gap, blank, rfl, rest, rfl, hrest⟩
      exact ⟨gap, rest, by simp, blank, hrest, rfl⟩
  refine Option.ext fun hit => ?_
  rw [place, place]
  exact exists_congr fun gap => and_congr_right fun blank => and_congr_right fun _ => h gap blank

/-- Where the rule takes something, a percent sign stands. -/
theorem percentOfRule_eq_none {b : Option Char} {c : Char} {cs : List Char} (hc : c ≠ '%') :
    percentOfRule b (c :: cs) = none := by
  refine Option.eq_none_iff_forall_ne_some.2 fun hit h => ?_
  obtain ⟨gap, rest, htext, -⟩ := percentOfRule_eq_some_iff.1 h
  cases htext
  exact hc rfl

theorem isTidy_percentOfRule : Rule.IsTidy percentOfRule := by
  have symbols : IsSymbols "% *".toList := by decide
  constructor
  · intro b text hit h
    obtain ⟨gap, rest, rfl, -, hrest, rfl⟩ := percentOfRule_eq_some_iff.1 h
    exact ⟨'%' :: (gap ++ "of".toList), rest, by simp, by simp, by simp, hrest⟩
  · intro b c cs hit h
    obtain ⟨gap, rest, htext, -, -, rfl⟩ := percentOfRule_eq_some_iff.1 h
    cases htext
    refine .inr ⟨by decide, by decide, rfl⟩
  · intro b text hit h
    obtain ⟨gap, rest, rfl, -, -, rfl⟩ := percentOfRule_eq_some_iff.1 h
    exact symbols.no_letter
  · intro b text hit h
    obtain ⟨gap, rest, rfl, -, -, rfl⟩ := percentOfRule_eq_some_iff.1 h
    exact symbols.not_blank

/-- Where a rule has taken all percent signs before `of`, none comes about. -/
theorem percentOfRule_applyFrom {r : Rule} (hr : r.IsTidy)
    (first : ∀ {b text}, r b text = none → percentOfRule b text = none)
    (symbols : ∀ {b text hit}, r b text = some hit → '%' ∈ hit.replacement →
      hit.replacement = ['%', ' ', '*'])
    (b b' : Option Char) (text : List Char) :
    percentOfRule.applyFrom b' 0 (r.applyFrom b 0 text) = r.applyFrom b 0 text := by
  induction hn : text.length using Nat.strong_induction_on generalizing b b' text with
  | _ n ih =>
    subst hn
    cases text with
    | nil => rfl
    | cons c cs =>
      cases hrc : r b (c :: cs) with
      | some hit =>
        obtain ⟨a, rest, htext, hne, hlen, -⟩ := hr.cut hrc
        have shorter : rest.length < (c :: cs).length := by
          have := List.length_pos_iff.2 hne
          rw [htext, List.length_append]
          omega
        have next := ih _ shorter (a.getLast?.or b) (hit.replacement.getLast?.or b') rest rfl
        rw [htext] at hrc ⊢
        rw [Rule.applyFrom_take hrc hlen hne, Rule.applyFrom_append fun pre d post hd => ?_, next]
        by_cases hpercent : d = '%'
        · subst hpercent
          obtain ⟨rfl, rfl⟩ : pre = [] ∧ post = [' ', '*'] := by
            have written := (symbols hrc (by simp [hd])).symm.trans hd
            obtain ⟨rfl, hpost⟩ | ⟨more, rfl, hmore⟩ := List.cons_eq_append_iff.1 written
            · cases hpost
              exact ⟨rfl, rfl⟩
            · have later : '%' ∈ [' ', '*'] := by simp [hmore]
              exact absurd later (by decide)
          rfl
        · exact percentOfRule_eq_none hpercent
      | none =>
        have copied : percentOfRule b' (c :: r.applyFrom (some c) 0 cs) = none := by
          refine Option.eq_none_iff_forall_ne_some.2 fun hit h => ?_
          obtain ⟨gap, rest, htext, blank, hrest, -⟩ := percentOfRule_eq_some_iff.1 h
          obtain ⟨rfl, htext⟩ := List.cons_eq_cons.1 htext
          obtain ⟨word, rfl, hword⟩ := hr.eq_gap_append_of_applyFrom htext blank (by decide)
          obtain ⟨more, rfl, rfl⟩ :=
            hr.eq_append_of_applyFrom (w := "of".toList) hword.symm (by decide)
          have hmore := hr.goesOn_of_applyFrom rfl hrest
          have taken := first hrc
          rw [percentOfRule_eq_some_iff.2 ⟨gap, more, rfl, blank, hmore, rfl⟩] at taken
          cases taken
        rw [Rule.applyFrom_copy hrc, Rule.applyFrom_copy copied, ih _ (by simp) _ _ _ rfl]

/-- No phrase has a later word that starts with a percent sign. -/
theorem Phrase.Fits.precedes_of_percent {p : Phrase} (hp : p.Fits) :
    Rule.Precedes percentOfRule p.rule := by
  refine isTidy_percentOfRule.precedes_phraseRule hp.isPhrase fun b text w hw htext => ?_
  have hlower := hp.isPhrase.all_isLower w (List.mem_of_mem_tail hw)
  have hne := hp.isPhrase.word_ne_nil w (List.mem_of_mem_tail hw)
  cases text with
  | nil => rfl
  | cons c cs =>
    refine percentOfRule_eq_none ?_
    rintro rfl
    exact leadingWord_ne hne hlower rfl htext

/-! ## All passes -/

/-- The first phrase of a table or number word that a text starts with. -/
def vocabularyRule (table : List Phrase) : Rule :=
  firstOf ((table ++ numeralPhrases).map Phrase.rule)

theorem vocabularyRule_eq (table : List Phrase) :
    vocabularyRule table = firstOf (table.map Phrase.rule ++ [numeralRule]) := by
  rw [vocabularyRule, List.map_append, firstOf_append, ← numeralRule_eq_firstOf, firstOf_append,
    firstOf_singleton]

theorem exists_of_vocabularyRule {table : List Phrase} {b : Option Char} {text : List Char}
    {hit : Hit} (h : vocabularyRule table b text = some hit) :
    ∃ p ∈ table ++ numeralPhrases, p.rule b text = some hit := by
  obtain ⟨r, hr, h⟩ := exists_of_firstOf h
  obtain ⟨p, hp, rfl⟩ := List.mem_map.1 hr
  exact ⟨p, hp, h⟩

section Table

variable {table : List Phrase} (fits : ∀ p ∈ table ++ numeralPhrases, p.Fits)

include fits

theorem isTidy_vocabularyRule : (vocabularyRule table).IsTidy := by
  refine isTidy_firstOf fun r hr => ?_
  obtain ⟨p, hp, rfl⟩ := List.mem_map.1 hr
  exact (fits p hp).isTidy

theorem precedes_vocabularyRule : Rule.Precedes percentOfRule (vocabularyRule table) := by
  refine Rule.precedes_firstOf fun r hr => ?_
  obtain ⟨p, hp, rfl⟩ := List.mem_map.1 hr
  exact (fits p hp).precedes_of_percent

/-- Phrases and number words start with a small letter. -/
theorem vocabularyRule_eq_none {b : Option Char} {c : Char} {cs : List Char}
    (hc : c.isLower = false) : vocabularyRule table b (c :: cs) = none :=
  (precedes_vocabularyRule fits).letter cs hc

/-- Where small letters and blanks with a letter at their end stand at the start of both texts, or of
none, the same is replaced. -/
theorem vocabularyRule_congr {b b' : Option Char} {text text' : List Char}
    (hb : opensWord b = opensWord b')
    (h : ∀ a : List Char, (∀ c ∈ a, c.isLower = true ∨ isBlank c = true) →
      a.getLast?.any Char.isLower = true →
      ((∃ rest, text = a ++ rest ∧ goesOn rest = false) ↔
        ∃ rest, text' = a ++ rest ∧ goesOn rest = false)) :
    vocabularyRule table b text = vocabularyRule table b' text' := by
  refine firstOf_congr fun r hr => ?_
  obtain ⟨p, hp, rfl⟩ := List.mem_map.1 hr
  have hws := (fits p hp).isPhrase
  refine phraseRule_congr hws hb fun a ha => ?_
  obtain ⟨c, hc, hlower⟩ := ha.exists_getLast? hws
  exact h a (ha.isLower_or_isBlank hws.all_isLower) (by rw [hc]; exact hlower)

/-- Where no phrase starts with the leading word, nothing is replaced. -/
theorem vocabularyRule_of_leadingWord {b : Option Char} {text w : List Char}
    (heads : ∀ p ∈ table ++ numeralPhrases, p.spoken.head? ≠ some w) (h : leadingWord text = w) :
    vocabularyRule table b text = none := by
  refine Option.eq_none_iff_forall_ne_some.2 fun hit hit_eq => ?_
  obtain ⟨p, hp, hit_eq⟩ := exists_of_vocabularyRule hit_eq
  rw [(fits p hp).rule_eq_none (heads p hp) h] at hit_eq
  cases hit_eq

/-- What is replaced is the text of a phrase or a number word. -/
theorem exists_spelled_of_vocabularyRule {b : Option Char} {text : List Char} {hit : Hit}
    (h : vocabularyRule table b text = some hit) :
    ∃ p ∈ table ++ numeralPhrases, ∃ c a rest, text = c :: a ++ rest ∧ Spelled p.spoken (c :: a) ∧
      goesOn rest = false ∧ hit = ⟨a.length + 1, p.symbols.toList⟩ := by
  obtain ⟨p, hp, hrule⟩ := exists_of_vocabularyRule h
  have hws := (fits p hp).isPhrase
  obtain ⟨-, a, rest, rfl, ha, hrest, rfl⟩ := (phraseRule_eq_some_iff hws).1 hrule
  obtain ⟨c, cs, rfl, -⟩ := ha.exists_cons hws
  exact ⟨p, hp, c, cs, rest, rfl, ha, hrest, rfl⟩

/-- A phrase does not disturb the number words, which have one word each. -/
theorem precedes_numeralRule {p : Phrase} (hp : p ∈ table) : p.rule.Precedes numeralRule := by
  rw [numeralRule_eq_firstOf]
  refine Rule.precedes_firstOf fun r hr => ?_
  obtain ⟨q, hq, rfl⟩ := List.mem_map.1 hr
  refine (fits p (by simp [hp])).precedes (fits q (by simp [hq])) fun w hw => ?_
  rw [tail_spoken_numeral q hq] at hw
  cases hw

/-- **The phrases of a table and the number words are replaced in one reading.** -/
theorem applyNumerals_foldl (avoids : table.Pairwise Phrase.Avoids) (text : List Char) :
    applyNumerals (table.foldl (fun t p => p.apply t) text) = (vocabularyRule table).apply text := by
  have fit {p : Phrase} (hp : p ∈ table) : p.Fits := fits p (by simp [hp])
  have pairwise : (table.map Phrase.rule ++ [numeralRule]).Pairwise
      fun r s => r.IsTidy ∧ r.Precedes s := by
    refine List.pairwise_append.2 ⟨List.pairwise_map.2 ?_, List.pairwise_singleton _ _, ?_⟩
    · exact avoids.imp_of_mem fun hp hq h => ⟨(fit hp).isTidy, (fit hp).precedes (fit hq) h⟩
    · intro r hr s hs
      obtain ⟨p, hp, rfl⟩ := List.mem_map.1 hr
      cases List.mem_singleton.1 hs
      exact ⟨(fit hp).isTidy, precedes_numeralRule fits hp⟩
  rw [vocabularyRule_eq, ← foldl_apply_eq_firstOf pairwise, List.foldl_append, List.foldl_map]
  rfl

end Table

theorem fits_expression : ∀ p ∈ phrases ++ numeralPhrases, p.Fits :=
  fun p hp => fits_of_mem p (by simpa using .inr (List.mem_append.1 hp))

/-- What is replaced in a calculation. -/
def expressionRule : Rule := percentOfRule.orElse (vocabularyRule phrases)

theorem isTidy_expressionRule : expressionRule.IsTidy :=
  isTidy_percentOfRule.orElse (isTidy_vocabularyRule fits_expression)

/-- **All words of a calculation are replaced in one reading.** -/
theorem applyNumerals_applyPhrases (text : List Char) :
    applyNumerals (applyPhrases phrases text) = expressionRule.apply text := by
  have avoids := (List.pairwise_append.1 pairwise_avoids).2.1
  rw [applyPhrases, applyNumerals_foldl fits_expression avoids]
  exact ((precedes_vocabularyRule fits_expression).apply_orElse isTidy_percentOfRule text).symm

end Reckoner.Wording
