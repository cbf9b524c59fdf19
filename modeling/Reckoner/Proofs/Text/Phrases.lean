import Reckoner.Proofs.Text.Fusion
import Reckoner.Wording.Passes

/-!
# Phrases and the passes before them

A rule that keeps words apart does not disturb a phrase that is replaced after it
(`precedes_phraseRule`), unless it takes something where a later word of the phrase starts: the text
of the phrase stays as it is (`applyFrom_spelled`), and no new one comes about
(`eq_spelled_append_of_applyFrom`). A phrase rule itself keeps words apart (`isTidy_phraseRule`).
-/

namespace Reckoner.Text

open Unicode Wording

/-! ## Where a phrase is replaced -/

/-- What a phrase rule takes. -/
theorem phraseRule_eq_some_iff {ws : List (List Char)} (hws : IsPhrase ws) {symbols : List Char}
    {b : Option Char} {text : List Char} {hit : Hit} :
    phraseRule ws symbols b text = some hit ↔ opensWord b = true ∧
      ∃ a rest, text = a ++ rest ∧ Spelled ws a ∧ goesOn rest = false ∧
        hit = ⟨a.length, symbols⟩ := by
  unfold phraseRule
  by_cases hb : opensWord b = true
  · simp only [hb, reduceIte, true_and, Option.map_eq_some_iff, wordsLength_eq_some_iff hws]
    constructor
    · rintro ⟨_, ⟨a, rest, rfl, h, hrest, rfl⟩, rfl⟩
      exact ⟨a, rest, rfl, h, hrest, rfl⟩
    · rintro ⟨a, rest, rfl, h, hrest, rfl⟩
      exact ⟨_, ⟨a, rest, rfl, h, hrest, rfl⟩, rfl⟩
  · simp [hb]

/-- A phrase is replaced in two texts alike if its spellings stand in both at the start. -/
theorem phraseRule_congr {ws : List (List Char)} (hws : IsPhrase ws) {symbols : List Char}
    {b b' : Option Char} {text text' : List Char} (hb : opensWord b = opensWord b')
    (h : ∀ a, Spelled ws a → ((∃ rest, text = a ++ rest ∧ goesOn rest = false) ↔
      ∃ rest, text' = a ++ rest ∧ goesOn rest = false)) :
    phraseRule ws symbols b text = phraseRule ws symbols b' text' := by
  refine Option.ext fun hit => ?_
  rw [phraseRule_eq_some_iff hws, phraseRule_eq_some_iff hws, hb]
  refine and_congr_right fun _ => ⟨?_, ?_⟩
  · rintro ⟨a, rest, htext, ha, hrest, rfl⟩
    obtain ⟨rest', htext', hrest'⟩ := (h a ha).1 ⟨rest, htext, hrest⟩
    exact ⟨a, rest', htext', ha, hrest', rfl⟩
  · rintro ⟨a, rest, htext, ha, hrest, rfl⟩
    obtain ⟨rest', htext', hrest'⟩ := (h a ha).2 ⟨rest, htext, hrest⟩
    exact ⟨a, rest', htext', ha, hrest', rfl⟩

/-- What may stand in the place of a phrase: no word and no small letter, and not only blanks. -/
structure IsSymbols (symbols : List Char) : Prop where
  goesOn : goesOn symbols = false
  no_letter : ∀ d ∈ symbols, d.isLower = false
  not_blank : ∃ d ∈ symbols, isBlank d = false

theorem isTidy_phraseRule {ws : List (List Char)} {symbols : List Char} (hws : IsPhrase ws)
    (hsymbols : IsSymbols symbols) : Rule.IsTidy (phraseRule ws symbols) := by
  constructor
  · intro b text hit h
    obtain ⟨-, a, rest, rfl, ha, hrest, rfl⟩ := (phraseRule_eq_some_iff hws).1 h
    obtain ⟨c, cs, rfl, -⟩ := ha.exists_cons hws
    exact ⟨_, rest, rfl, by simp, rfl, hrest⟩
  · intro b c cs hit h
    obtain ⟨hb, a, rest, htext, ha, -, rfl⟩ := (phraseRule_eq_some_iff hws).1 h
    obtain ⟨d, ds, rfl, hd⟩ := ha.exists_cons hws
    cases htext
    exact .inl ⟨hb, isWord_of_isLower hd, hsymbols.goesOn⟩
  · intro b text hit h
    obtain ⟨-, a, rest, rfl, -, -, rfl⟩ := (phraseRule_eq_some_iff hws).1 h
    exact hsymbols.no_letter
  · intro b text hit h
    obtain ⟨-, a, rest, rfl, -, -, rfl⟩ := (phraseRule_eq_some_iff hws).1 h
    exact hsymbols.not_blank

/-- Where a phrase is spelled, its first word is the leading one. -/
theorem Spelled.leadingWord_append {w : List Char} {ws : List (List Char)} {a rest : List Char}
    (h : Spelled (w :: ws) a) (hws : IsPhrase (w :: ws)) (hrest : goesOn rest = false) :
    leadingWord (a ++ rest) = w := by
  have hw := all_isWord_of_all_isLower (hws.all_isLower w List.mem_cons_self)
  refine (leadingWord_eq_iff hw).2 ?_
  cases h with
  | last => exact ⟨rest, rfl, hrest⟩
  | @cons _ gap text _ ne_nil blank =>
    refine ⟨gap ++ (text ++ rest), by simp, goesOn_of_blank ne_nil blank⟩

namespace Rule.IsTidy

variable {r : Rule} (hr : r.IsTidy)

include hr

/-! ## Spelled texts stay -/

theorem applyFrom_inside {w rest : List Char} {b : Option Char} (hb : opensWord b = false)
    (hw : w.all isWord = true) :
    r.applyFrom b 0 (w ++ rest) = w ++ r.applyFrom (w.getLast?.or b) 0 rest := by
  induction w generalizing b with
  | nil => rfl
  | cons c w ih =>
    rw [List.all_cons, Bool.and_eq_true] at hw
    have hc : opensWord (some c) = false := by simp [opensWord, hw.1]
    rw [List.cons_append, Rule.applyFrom_copy (hr.inside hb hw.1), ih hc hw.2, List.cons_append,
      getLast?_cons_or]

theorem applyFrom_word {w rest : List Char} {b : Option Char} (h : r b (w ++ rest) = none)
    (hw : w.all isWord = true) :
    r.applyFrom b 0 (w ++ rest) = w ++ r.applyFrom (w.getLast?.or b) 0 rest := by
  cases w with
  | nil => rfl
  | cons c w =>
    rw [List.all_cons, Bool.and_eq_true] at hw
    have hc : opensWord (some c) = false := by simp [opensWord, hw.1]
    rw [List.cons_append] at h ⊢
    rw [Rule.applyFrom_copy h, hr.applyFrom_inside hc hw.2, List.cons_append,
      getLast?_cons_or]

theorem applyFrom_gap {gap rest : List Char} {b : Option Char} (blank : gap.all isBlank = true) :
    r.applyFrom b 0 (gap ++ rest) = gap ++ r.applyFrom (gap.getLast?.or b) 0 rest :=
  Rule.applyFrom_append fun pre c post hgap =>
    hr.blank (List.all_eq_true.1 blank c (by simp [hgap]))

/-- A text of words stays where the rule takes nothing at the start and no later word is one that it
takes something at. -/
theorem applyFrom_spelled {ws : List (List Char)} {a rest : List Char} {b : Option Char}
    (hws : IsPhrase ws)
    (avoid : ∀ b text, ∀ w ∈ ws.tail, leadingWord text = w → r b text = none)
    (ha : Spelled ws a) (h : r b (a ++ rest) = none) (hrest : goesOn rest = false) :
    r.applyFrom b 0 (a ++ rest) = a ++ r.applyFrom (a.getLast?.or b) 0 rest := by
  induction ha generalizing b with
  | last w =>
    exact hr.applyFrom_word h (all_isWord_of_all_isLower (hws.all_isLower w List.mem_cons_self))
  | @cons w gap text ws ne_nil blank htext ih =>
    obtain ⟨v, vs, rfl⟩ : ∃ v vs, ws = v :: vs := by cases htext <;> exact ⟨_, _, rfl⟩
    have hw := all_isWord_of_all_isLower (hws.all_isLower w List.mem_cons_self)
    have next : r (gap.getLast?.or (w.getLast?.or b)) (text ++ rest) = none :=
      avoid _ _ v (by simp) (htext.leadingWord_append hws.tail hrest)
    rw [List.append_assoc, List.append_assoc] at h ⊢
    rw [hr.applyFrom_word h hw, hr.applyFrom_gap blank, ih hws.tail _ next]
    · simp [List.getLast?_append, Option.or_assoc]
    · exact fun b text u hu => avoid b text u (by simpa using .inr hu)

/-! ## No new ones come about -/

/-- A text that starts with a small letter, once the rule has been applied, starts with it before. -/
theorem eq_cons_of_applyFrom {text rest : List Char} {c : Char} {b : Option Char}
    (h : r.applyFrom b 0 text = c :: rest) (hc : c.isLower = true) :
    ∃ cs, text = c :: cs ∧ rest = r.applyFrom (some c) 0 cs ∧ r b text = none := by
  cases text with
  | nil => cases h
  | cons d ds =>
    cases hrd : r b (d :: ds) with
    | none =>
      rw [Rule.applyFrom_copy hrd] at h
      cases h
      exact ⟨ds, rfl, rfl, rfl⟩
    | some hit =>
      obtain ⟨a, more, htext, hne, hlen, -⟩ := hr.cut hrd
      obtain ⟨e, he, -⟩ := hr.not_blank hrd
      rw [htext] at h hrd
      rw [Rule.applyFrom_take hrd hlen hne] at h
      cases hrep : hit.replacement with
      | nil =>
        rw [hrep] at he
        cases he
      | cons f fs =>
        have := hr.no_letter hrd f (by simp [hrep])
        rw [hrep] at h
        cases h
        rw [hc] at this
        cases this

theorem eq_append_of_applyFrom {w text rest : List Char} {b : Option Char}
    (h : r.applyFrom b 0 text = w ++ rest) (hw : w.all Char.isLower = true) :
    ∃ cs, text = w ++ cs ∧ rest = r.applyFrom (w.getLast?.or b) 0 cs := by
  induction w generalizing text b with
  | nil => exact ⟨text, rfl, h.symm⟩
  | cons c w ih =>
    rw [List.all_cons, Bool.and_eq_true] at hw
    obtain ⟨cs, rfl, hrest, -⟩ := hr.eq_cons_of_applyFrom h hw.1
    obtain ⟨ds, rfl, hds⟩ := ih hrest.symm hw.2
    exact ⟨ds, rfl, by rw [hds, getLast?_cons_or]⟩

/-- What the rule writes at a place is not just blanks with a small letter behind them. -/
theorem applyFrom_ne_gap {gap text rest : List Char} {c : Char} {b : Option Char} {hit : Hit}
    (h : r b text = some hit) (blank : gap.all isBlank = true) (hc : c.isLower = true) :
    r.applyFrom b 0 text ≠ gap ++ c :: rest := by
  intro happly
  obtain ⟨a, more, rfl, hne, hlen, -⟩ := hr.cut h
  rw [Rule.applyFrom_take h hlen hne] at happly
  obtain ⟨d, hd, hblank⟩ := hr.not_blank h
  obtain ⟨gap', hgap, -⟩ | ⟨written, hwritten, hrest⟩ := List.append_eq_append_iff.1 happly
  · have := List.all_eq_true.1 blank d (by simp [hgap, hd])
    rw [hblank] at this
    cases this
  · cases written with
    | nil =>
      have := List.all_eq_true.1 blank d (by simpa [hwritten] using hd)
      rw [hblank] at this
      cases this
    | cons e written =>
      cases hrest
      have := hr.no_letter h c (by simp [hwritten])
      rw [hc] at this
      cases this

/-- Blanks in front of a small letter, once the rule has been applied, are there before. -/
theorem eq_gap_append_of_applyFrom {gap text rest : List Char} {c : Char} {b : Option Char}
    (h : r.applyFrom b 0 text = gap ++ c :: rest) (blank : gap.all isBlank = true)
    (hc : c.isLower = true) :
    ∃ cs, text = gap ++ cs ∧ c :: rest = r.applyFrom (gap.getLast?.or b) 0 cs := by
  induction gap generalizing text b with
  | nil => exact ⟨text, rfl, h.symm⟩
  | cons d gap ih =>
    cases text with
    | nil => cases h
    | cons e es =>
      cases hre : r b (e :: es) with
      | some hit => exact absurd h (hr.applyFrom_ne_gap hre blank hc)
      | none =>
        rw [List.all_cons, Bool.and_eq_true] at blank
        rw [Rule.applyFrom_copy hre, List.cons_append] at h
        obtain ⟨rfl, htail⟩ := List.cons_eq_cons.1 h
        obtain ⟨cs, rfl, hcs⟩ := ih htail blank.2
        exact ⟨cs, rfl, by rw [hcs, getLast?_cons_or]⟩

/-- A text of words, once the rule has been applied, is there before. -/
theorem eq_spelled_append_of_applyFrom {ws : List (List Char)} {a text rest : List Char}
    {b : Option Char} (hws : IsPhrase ws) (ha : Spelled ws a)
    (h : r.applyFrom b 0 text = a ++ rest) :
    ∃ cs, text = a ++ cs ∧ rest = r.applyFrom (a.getLast?.or b) 0 cs := by
  induction ha generalizing text b with
  | last w => exact hr.eq_append_of_applyFrom h (hws.all_isLower w List.mem_cons_self)
  | @cons w gap more ws ne_nil blank hmore ih =>
    obtain ⟨v, vs, rfl⟩ : ∃ v vs, ws = v :: vs := by cases hmore <;> exact ⟨_, _, rfl⟩
    obtain ⟨c, cs, hcs, hc⟩ := hmore.exists_cons hws.tail
    rw [List.append_assoc, List.append_assoc] at h
    obtain ⟨after, rfl, hafter⟩ :=
      hr.eq_append_of_applyFrom h (hws.all_isLower w List.mem_cons_self)
    rw [hcs, List.cons_append] at hafter
    obtain ⟨next, rfl, hnext⟩ := hr.eq_gap_append_of_applyFrom hafter.symm blank hc
    rw [← List.cons_append, ← hcs] at hnext
    obtain ⟨last, rfl, hlast⟩ := ih hws.tail hnext.symm
    refine ⟨last, by simp, hlast.trans ?_⟩
    simp [List.getLast?_append, Option.or_assoc]

/-- A word that goes on does so once the rule has been applied. -/
theorem goesOn_of_applyFrom {text : List Char} {b : Option Char} (hb : opensWord b = false)
    (h : goesOn (r.applyFrom b 0 text) = false) : goesOn text = false := by
  rwa [goesOn, hr.head?_applyFrom_inside hb] at h

end Rule.IsTidy

theorem IsPhrase.opensWord_getLast? {ws : List (List Char)} {a : List Char} (hws : IsPhrase ws)
    (ha : Spelled ws a) (b : Option Char) : opensWord (a.getLast?.or b) = false := by
  obtain ⟨c, hc, hlower⟩ := ha.exists_getLast? hws
  simp [hc, opensWord, isWord_of_isLower hlower]

/-- **A phrase is not disturbed by a rule before it**, if the rule keeps words apart and takes
nothing where a later word of the phrase starts. -/
theorem Rule.IsTidy.precedes_phraseRule {r : Rule} (hr : r.IsTidy) {ws : List (List Char)}
    {symbols : List Char} (hws : IsPhrase ws)
    (avoid : ∀ b text, ∀ w ∈ ws.tail, leadingWord text = w → r b text = none) :
    r.Precedes (phraseRule ws symbols) := by
  constructor
  · intro b c cs hc
    refine Option.eq_none_iff_forall_ne_some.2 fun hit h => ?_
    obtain ⟨-, a, rest, htext, ha, -, rfl⟩ := (phraseRule_eq_some_iff hws).1 h
    obtain ⟨d, ds, rfl, hd⟩ := ha.exists_cons hws
    cases htext
    rw [hc] at hd
    cases hd
  · intro b text h
    refine Option.ext fun hit => ?_
    rw [phraseRule_eq_some_iff hws, phraseRule_eq_some_iff hws]
    refine and_congr_right fun _ => ⟨?_, ?_⟩
    · rintro ⟨a, rest, happly, ha, hrest, rfl⟩
      obtain ⟨cs, rfl, rfl⟩ := hr.eq_spelled_append_of_applyFrom hws ha happly
      exact ⟨a, cs, rfl, ha, hr.goesOn_of_applyFrom (hws.opensWord_getLast? ha b) hrest, rfl⟩
    · rintro ⟨a, rest, rfl, ha, hrest, rfl⟩
      exact ⟨a, _, hr.applyFrom_spelled hws avoid ha h hrest, ha, hr.goesOn_applyFrom hrest, rfl⟩
  · intro b text hit h hs
    obtain ⟨-, a, rest, rfl, ha, hrest, rfl⟩ := (phraseRule_eq_some_iff hws).1 hs
    obtain ⟨c, cs, rfl, -⟩ := ha.exists_cons hws
    exact ⟨_, rest, rfl, by simp, rfl, hr.applyFrom_spelled hws avoid ha h hrest⟩

end Reckoner.Text
