import Mathlib.Data.List.TakeWhile
import Reckoner.Proofs.Text.Runs
import Reckoner.Text.Replacement

/-!
# Words in a row

The texts that words in a row are found in: the words with blanks between them (`Spelled`), up to a
place where no word goes on. `wordsLength_eq_some_iff` says that exactly these are found. Phrases
are made of small letters, so nothing but letters and blanks stands in their texts
(`Spelled.isLower_or_isBlank`).
-/

namespace Reckoner.Text

open Unicode

/-! ## Small letters, words and blanks -/

theorem toNat_of_isLower {c : Char} (h : c.isLower = true) : 97 ≤ c.toNat ∧ c.toNat ≤ 122 := by
  have h := (Bool.and_eq_true (decide (97 ≤ c.toNat)) (decide (c.toNat ≤ 122))).mp h
  exact ⟨of_decide_eq_true h.1, of_decide_eq_true h.2⟩

theorem isAlphabetic_of_isLower {c : Char} (h : c.isLower = true) : isAlphabetic c = true :=
  isAlphabetic_of_isAlpha ((Bool.or_eq_true _ _).mpr (.inr h))

theorem isWord_of_isLower {c : Char} (h : c.isLower = true) : isWord c = true := by
  have bounds := toNat_of_isLower h
  rw [isWord, isAlphabetic_of_isLower h, isNew_eq_false_of_lt (by omega)]
  rfl

theorem isWord_of_isDigit {c : Char} (h : isDigit c = true) : isWord c = true := by
  rw [isDigit, Bool.and_eq_true] at h
  simp [isWord, h.1, h.2]

theorem isLower_eq_false_of_isDigit {c : Char} (h : isDigit c = true) : c.isLower = false := by
  have letters : ∀ n < 123, 97 ≤ n → decimalDigit.contains n = false := by decide +kernel
  refine Bool.eq_false_iff.2 fun hl => ?_
  have bounds := toNat_of_isLower hl
  rw [isDigit, letters c.toNat (by omega) bounds.1] at h
  cases h

theorem isBlank_eq_false_of_isWord {c : Char} (h : isWord c = true) : isBlank c = false :=
  Bool.eq_false_iff.2 fun hb => by
    rw [isWord_eq_false_of_isBlank hb] at h
    cases h

/-- Neither digits nor signs are blanks. -/
theorem isBlank_eq_false_of_isDigit_or_mem {signs : List Char}
    (solid : signs.all (!isBlank ·) = true) {c : Char}
    (h : (c.isDigit || signs.contains c) = true) : isBlank c = false := by
  obtain h | h := (Bool.or_eq_true _ _).mp h
  · exact isBlank_eq_false_of_isWord (isWord_of_isDigit (isDigit_of_isDigit h))
  · simpa using List.all_eq_true.1 solid c (List.contains_iff_mem.1 h)

theorem isLower_eq_false_of_not_isWord {c : Char} (h : isWord c = false) : c.isLower = false :=
  Bool.eq_false_iff.2 fun hl => by
    rw [isWord_of_isLower hl] at h
    cases h

theorem isLower_eq_false_of_isBlank {c : Char} (h : isBlank c = true) : c.isLower = false :=
  isLower_eq_false_of_not_isWord (isWord_eq_false_of_isBlank h)

theorem ne_of_isDigit {c d : Char} (h : isDigit c = true) (hd : isDigit d = false) : c ≠ d := by
  rintro rfl
  cases hd.symm.trans h

/-- Small letters and blanks are no digits. -/
theorem isDigit_eq_false {c : Char} (h : c.isLower = true ∨ isBlank c = true) :
    isDigit c = false := by
  refine Bool.eq_false_iff.2 fun digit => ?_
  obtain lower | blank := h
  · rw [isLower_eq_false_of_isDigit digit] at lower
    cases lower
  · rw [isBlank_eq_false_of_isWord (isWord_of_isDigit digit)] at blank
    cases blank

/-- Whether a text starts with a character of words, so that a word before it goes on. -/
def goesOn (text : List Char) : Bool := text.head?.any isWord

/-- A word that a text starts with, up to a place where it does not go on. -/
theorem leadingWord_eq_iff {w text : List Char} (hw : w.all isWord = true) :
    leadingWord text = w ↔ ∃ rest, text = w ++ rest ∧ goesOn rest = false := by
  constructor
  · rintro rfl
    exact ⟨_, List.takeWhile_append_dropWhile.symm, any_head?_dropWhile text⟩
  · rintro ⟨rest, rfl, hrest⟩
    exact takeWhile_run hw hrest

/-- A text that does not start with a small letter does not start with a word of them. -/
theorem leadingWord_ne {w text : List Char} (hne : w ≠ []) (hw : w.all Char.isLower = true)
    (h : text.head?.any Char.isLower = false) : leadingWord text ≠ w := by
  rintro rfl
  cases text with
  | nil => exact hne rfl
  | cons c cs =>
    have hc : c.isLower = false := h
    by_cases hword : isWord c = true
    · rw [leadingWord, List.takeWhile_cons, if_pos hword, List.all_cons, hc] at hw
      cases hw
    · exact hne (by simp [leadingWord, hword])

/-! ## Phrases -/

/-- Words in a row, all of small letters. -/
structure IsPhrase (ws : List (List Char)) : Prop where
  ne_nil : ws ≠ []
  word_ne_nil : ∀ w ∈ ws, w ≠ []
  all_isLower : ∀ w ∈ ws, w.all Char.isLower = true

theorem IsPhrase.tail {v w : List Char} {ws : List (List Char)} (h : IsPhrase (v :: w :: ws)) :
    IsPhrase (w :: ws) :=
  ⟨by simp, fun u hu => h.word_ne_nil u (List.mem_cons_of_mem _ hu),
    fun u hu => h.all_isLower u (List.mem_cons_of_mem _ hu)⟩

theorem all_isWord_of_all_isLower {w : List Char} (h : w.all Char.isLower = true) :
    w.all isWord = true :=
  List.all_eq_true.2 fun c hc => isWord_of_isLower (List.all_eq_true.1 h c hc)

/-- The texts of words in a row: at least one blank stands between two of them. -/
inductive Spelled : List (List Char) → List Char → Prop
  | last (w : List Char) : Spelled [w] w
  | cons {w gap text : List Char} {ws : List (List Char)} (ne_nil : gap ≠ [])
    (blank : gap.all isBlank = true) (h : Spelled ws text) :
    Spelled (w :: ws) (w ++ (gap ++ text))

theorem Spelled.isLower_or_isBlank {ws : List (List Char)} {text : List Char} (h : Spelled ws text)
    (hws : ∀ w ∈ ws, w.all Char.isLower = true) :
    ∀ c ∈ text, c.isLower = true ∨ isBlank c = true := by
  induction h with
  | last w => exact fun c hc => .inl (List.all_eq_true.1 (hws w List.mem_cons_self) c hc)
  | @cons w gap text ws _ blank _ ih =>
    intro c hc
    obtain hc | hc | hc := (List.mem_append.1 hc).imp_right List.mem_append.1
    · exact .inl (List.all_eq_true.1 (hws w List.mem_cons_self) c hc)
    · exact .inr (List.all_eq_true.1 blank c hc)
    · exact ih (fun u hu => hws u (List.mem_cons_of_mem _ hu)) c hc

/-- The text of a phrase starts with a small letter. -/
theorem Spelled.exists_cons {ws : List (List Char)} {text : List Char} (h : Spelled ws text)
    (hws : IsPhrase ws) : ∃ c cs, text = c :: cs ∧ c.isLower = true := by
  have first {w : List Char} (hw : w ∈ ws) (more : List Char) :
      ∃ c cs, w ++ more = c :: cs ∧ c.isLower = true := by
    cases w with
    | nil => exact absurd rfl (hws.word_ne_nil [] hw)
    | cons c cs =>
      exact ⟨c, cs ++ more, rfl, List.all_eq_true.1 (hws.all_isLower _ hw) c List.mem_cons_self⟩
  cases h with
  | last w => simpa using first List.mem_cons_self []
  | cons => exact first List.mem_cons_self _

/-- The text of a phrase ends with a small letter. -/
theorem Spelled.exists_getLast? {ws : List (List Char)} {text : List Char} (h : Spelled ws text)
    (hws : IsPhrase ws) : ∃ c, text.getLast? = some c ∧ c.isLower = true := by
  induction h with
  | last w =>
    have hne := hws.word_ne_nil w List.mem_cons_self
    exact ⟨w.getLast hne, List.getLast?_eq_some_getLast hne,
      List.all_eq_true.1 (hws.all_isLower w List.mem_cons_self) _ (List.getLast_mem hne)⟩
  | @cons w gap text ws ne_nil _ h ih =>
    have hws' : IsPhrase ws := by
      cases h with
      | last => exact hws.tail
      | cons => exact hws.tail
    obtain ⟨c, hc, hlower⟩ := ih hws'
    exact ⟨c, by simp [List.getLast?_append, hc], hlower⟩

theorem goesOn_of_blank {gap text : List Char} (ne_nil : gap ≠ []) (blank : gap.all isBlank = true) :
    goesOn (gap ++ text) = false := by
  cases gap with
  | nil => exact absurd rfl ne_nil
  | cons c gap =>
    exact isWord_eq_false_of_isBlank (List.all_eq_true.1 blank c List.mem_cons_self)

theorem exists_getLast?_of_blank {gap : List Char} (ne_nil : gap ≠ [])
    (blank : gap.all isBlank = true) : ∃ c, gap.getLast? = some c ∧ isBlank c = true :=
  ⟨_, List.getLast?_eq_some_getLast ne_nil, List.all_eq_true.1 blank _ (List.getLast_mem ne_nil)⟩

/-- Words in a row are found behind the first of them, and take no less than it does. -/
theorem of_wordsLength_cons {w : List Char} {ws : List (List Char)} {text : List Char} {n : ℕ}
    (h : wordsLength (w :: ws) text = some n) : leadingWord text = w ∧ w.length ≤ n := by
  cases ws with
  | nil =>
    simp only [wordsLength] at h
    split at h
    · cases h
      exact ⟨‹_›, le_rfl⟩
    · cases h
  | cons v ws =>
    simp only [wordsLength] at h
    split at h
    · split at h
      · cases h
      · obtain ⟨m, -, rfl⟩ := Option.map_eq_some_iff.1 h
        exact ⟨‹_›, by omega⟩
    · cases h

/-- A word in front of other words. -/
theorem wordsLength_cons_eq_some_iff {w v : List Char} {ws : List (List Char)} {text : List Char}
    {n : ℕ} (hw : w.all isWord = true) :
    wordsLength (w :: v :: ws) text = some n ↔
      ∃ gap rest m, text = w ++ (gap ++ rest) ∧ gap ≠ [] ∧ gap.all isBlank = true ∧
        rest.head?.any isBlank = false ∧ wordsLength (v :: ws) rest = some m ∧
        n = w.length + gap.length + m := by
  simp only [wordsLength]
  constructor
  · intro h
    split at h
    · rename_i hlead
      obtain ⟨rest, rfl, -⟩ := (leadingWord_eq_iff hw).1 hlead
      rw [List.drop_left] at h
      split at h
      · cases h
      · rename_i hgap
        obtain ⟨m, hm, rfl⟩ := Option.map_eq_some_iff.1 h
        refine ⟨rest.takeWhile isBlank, rest.dropWhile isBlank, m, ?_, hgap, List.all_takeWhile,
          any_head?_dropWhile rest, ?_, rfl⟩
        · rw [List.takeWhile_append_dropWhile]
        · rw [← hm, List.drop_length_add_append, drop_length_takeWhile]
    · cases h
  · rintro ⟨gap, rest, m, rfl, ne_nil, blank, hrest, hm, rfl⟩
    have hlead := (leadingWord_eq_iff hw).2 ⟨gap ++ rest, rfl, goesOn_of_blank ne_nil blank⟩
    rw [if_pos hlead, List.drop_left, takeWhile_run blank hrest, if_neg ne_nil,
      List.drop_length_add_append, List.drop_left, hm]
    rfl

/-- **Words in a row are found where they are spelled.** -/
theorem wordsLength_eq_some_iff {ws : List (List Char)} (hws : IsPhrase ws) {text : List Char}
    {n : ℕ} :
    wordsLength ws text = some n ↔
      ∃ a rest, text = a ++ rest ∧ Spelled ws a ∧ goesOn rest = false ∧ n = a.length := by
  match ws with
  | [] => exact absurd rfl hws.ne_nil
  | [w] =>
    have hw := all_isWord_of_all_isLower (hws.all_isLower w List.mem_cons_self)
    simp only [wordsLength]
    constructor
    · intro h
      split at h
      · rename_i hlead
        cases h
        obtain ⟨rest, rfl, hrest⟩ := (leadingWord_eq_iff hw).1 hlead
        exact ⟨w, rest, rfl, .last w, hrest, rfl⟩
      · cases h
    · rintro ⟨a, rest, rfl, h, hrest, rfl⟩
      cases h with
      | last => rw [if_pos ((leadingWord_eq_iff hw).2 ⟨rest, rfl, hrest⟩)]
      | cons _ _ h => cases h
  | w :: v :: ws =>
    have hw := all_isWord_of_all_isLower (hws.all_isLower w List.mem_cons_self)
    have ih {text : List Char} {n : ℕ} := @wordsLength_eq_some_iff (v :: ws) hws.tail text n
    rw [wordsLength_cons_eq_some_iff hw]
    constructor
    · rintro ⟨gap, _, m, rfl, ne_nil, blank, -, hm, rfl⟩
      obtain ⟨a, rest, rfl, h, hrest, rfl⟩ := ih.1 hm
      exact ⟨w ++ (gap ++ a), rest, by simp, .cons ne_nil blank h, hrest, by simp [Nat.add_assoc]⟩
    · rintro ⟨_, rest, rfl, h, hrest, rfl⟩
      cases h with
      | @cons _ gap a _ ne_nil blank h =>
        obtain ⟨c, cs, rfl, hc⟩ := h.exists_cons hws.tail
        refine ⟨gap, c :: cs ++ rest, _, by simp, ne_nil, blank, ?_,
          ih.2 ⟨_, rest, rfl, h, hrest, rfl⟩, by simp [Nat.add_assoc]⟩
        exact isBlank_eq_false_of_isWord (isWord_of_isLower hc)

end Reckoner.Text
