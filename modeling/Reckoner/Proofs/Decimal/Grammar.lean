import Mathlib.Data.List.TakeWhile
import Reckoner.Decimal.Literal
import Reckoner.Proofs.Text.Runs

/-!
# The grammar of literals

What `Digits.ofText?` and `readScientific?` read is said without them: a decimal is digits alone, or
a point with digits on at least one of its sides (`IsDecimal`), and a literal is a decimal that a
power of ten may follow (`IsLiteral`). Both are read exactly (`Digits.ofText?_eq_some_iff`,
`readScientific?_eq_some_iff`).
-/

namespace Reckoner.Decimal

/-- The texts of digits: the whole ones alone, or with a point and digits before or behind it. -/
inductive IsDecimal : List Char → Digits → Prop
  | whole {whole : List Char} (ne_nil : whole ≠ []) (digits : whole.all Char.isDigit = true) :
    IsDecimal whole ⟨whole, []⟩
  | point {whole fraction : List Char} (ne_nil : whole ≠ [] ∨ fraction ≠ [])
    (digits : whole.all Char.isDigit = true) (decimals : fraction.all Char.isDigit = true) :
    IsDecimal (whole ++ '.' :: fraction) ⟨whole, fraction⟩

/-- Whether a character may stand before a power of ten. -/
def isMark (c : Char) : Bool := c = 'e' || c = 'E'

/-- The texts of literals and their values. -/
inductive IsLiteral : List Char → Float → Prop
  | decimal {text : List Char} {d : Digits} (h : IsDecimal text d) : IsLiteral text (d.value 0)
  | scaled {text power : List Char} {d : Digits} {mark : Char} (h : IsDecimal text d)
    (hmark : isMark mark = true) (ne_nil : power ≠ []) (digits : power.all Char.isDigit = true) :
    IsLiteral (text ++ mark :: power) (d.value (Nat.ofDigitChars 10 power 0))

theorem Digits.ofText?_eq_some_iff {text : List Char} {d : Digits} :
    ofText? text = some d ↔ IsDecimal text d := by
  constructor
  · intro h
    have text_eq := List.takeWhile_append_dropWhile (p := Char.isDigit) (l := text)
    have digits : (text.takeWhile Char.isDigit).all Char.isDigit = true := List.all_takeWhile
    unfold ofText? at h
    dsimp only at h
    generalize text.takeWhile Char.isDigit = whole at *
    split at h
    · rename_i hrest
      split at h
      · cases h
      · rename_i hne
        cases h
        rw [hrest, List.append_nil] at text_eq
        subst text_eq
        exact .whole hne digits
    · rename_i c fraction hrest
      split at h
      · rename_i hc
        obtain ⟨rfl, decimals, hne⟩ := hc
        cases h
        rw [hrest] at text_eq
        subst text_eq
        exact .point (not_and_or.1 hne) digits decimals
      · cases h
  · rintro (⟨hne, digits⟩ | @⟨w, f, hne, digits, decimals⟩)
    · have hdrop := List.dropWhile_eq_nil_iff.2 (List.all_eq_true.1 digits)
      have htake := List.takeWhile_eq_self_iff.2 (List.all_eq_true.1 digits)
      simp [ofText?, hdrop, htake, hne]
    · have digits := List.all_eq_true.1 digits
      have hdrop : (w ++ '.' :: f).dropWhile Char.isDigit = '.' :: f :=
        List.dropWhile_append_of_pos digits
      have htake : (w ++ '.' :: f).takeWhile Char.isDigit = w :=
        (List.takeWhile_append_of_pos digits).trans (List.append_nil _)
      rw [ofText?, hdrop, htake]
      exact if_pos ⟨rfl, decimals, not_and_or.2 hne⟩

/-- A text has the digits of one decimal only. -/
theorem IsDecimal.unique {text : List Char} {d e : Digits} (hd : IsDecimal text d)
    (he : IsDecimal text e) : d = e := by
  rw [← Digits.ofText?_eq_some_iff] at hd he
  exact Option.some.inj (hd.symm.trans he)

theorem IsDecimal.isLiteralChar {text : List Char} {d : Digits} (h : IsDecimal text d) {c : Char}
    (hc : c ∈ text) : isLiteralChar c = true := by
  have of_all {t : List Char} (ht : t.all Char.isDigit = true) (hc : c ∈ t) :
      Decimal.isLiteralChar c = true := by
    rw [Decimal.isLiteralChar, List.all_eq_true.1 ht c hc, Bool.true_or]
  cases h with
  | whole _ digits => exact of_all digits hc
  | point _ digits decimals =>
    obtain hc | rfl | hc := (List.mem_append.1 hc).imp_right List.mem_cons.1
    · exact of_all digits hc
    · rfl
    · exact of_all decimals hc

theorem IsDecimal.ne_nil {text : List Char} {d : Digits} (h : IsDecimal text d) : text ≠ [] := by
  cases h with
  | whole ne_nil _ => exact ne_nil
  | point => simp

theorem read?_eq_some_iff {text : List Char} {x : Float} :
    read? text = some x ↔ ∃ d, IsDecimal text d ∧ d.value 0 = x := by
  simp only [read?, Option.map_eq_some_iff, Digits.ofText?_eq_some_iff]

theorem isMark_eq_false {c : Char} (h : isLiteralChar c = true) : isMark c = false := by
  have he : c ≠ 'e' := by
    rintro rfl
    cases h
  have hE : c ≠ 'E' := by
    rintro rfl
    cases h
  simp [isMark, he, hE]

theorem isDigit_of_isLiteralChar {c : Char} (h : isLiteralChar c = true) (hc : c ≠ '.') :
    c.isDigit = true := by
  simpa [isLiteralChar, hc] using h

/-- Digits and points make a decimal if there is a digit among them and at most one point. -/
theorem exists_isDecimal_iff {text : List Char} (h : text.all isLiteralChar = true) :
    (∃ d, IsDecimal text d) ↔ (∃ c ∈ text, c.isDigit = true) ∧ text.count '.' ≤ 1 := by
  have no_point {t : List Char} (ht : t.all Char.isDigit = true) : t.count '.' = 0 :=
    List.count_eq_zero.2 fun hmem => absurd (List.all_eq_true.1 ht _ hmem) (by decide)
  have digits {t : List Char} (ht : ∀ c ∈ t, c ∈ text) (hpoint : '.' ∉ t) :
      t.all Char.isDigit = true := List.all_eq_true.2 fun c hc =>
    isDigit_of_isLiteralChar (List.all_eq_true.1 h c (ht c hc)) fun heq => hpoint (heq ▸ hc)
  constructor
  · rintro ⟨d, ⟨ne_nil, hwhole⟩ | ⟨ne_nil, hwhole, hfraction⟩⟩
    · obtain ⟨c, hc⟩ := List.exists_mem_of_ne_nil _ ne_nil
      exact ⟨⟨c, hc, List.all_eq_true.1 hwhole c hc⟩, by rw [no_point hwhole]; exact Nat.zero_le 1⟩
    · refine ⟨?_, ?_⟩
      · obtain ne_nil | ne_nil := ne_nil
        · obtain ⟨c, hc⟩ := List.exists_mem_of_ne_nil _ ne_nil
          exact ⟨c, List.mem_append_left _ hc, List.all_eq_true.1 hwhole c hc⟩
        · obtain ⟨c, hc⟩ := List.exists_mem_of_ne_nil _ ne_nil
          exact ⟨c, List.mem_append_right _ (List.mem_cons_of_mem _ hc),
            List.all_eq_true.1 hfraction c hc⟩
      · rw [List.count_append, List.count_cons_self, no_point hwhole, no_point hfraction]
  · rintro ⟨⟨c, hc, hdigit⟩, hcount⟩
    by_cases hpoint : '.' ∈ text
    · obtain ⟨whole, fraction, rfl⟩ := List.append_of_mem hpoint
      rw [List.count_append, List.count_cons_self] at hcount
      have hwhole := digits (t := whole) (fun c hc => by simp [hc])
        (List.count_eq_zero.1 (by omega))
      have hfraction := digits (t := fraction) (fun c hc => by simp [hc])
        (List.count_eq_zero.1 (by omega))
      refine ⟨_, .point ?_ hwhole hfraction⟩
      by_contra hnil
      simp only [ne_eq, not_or, not_not] at hnil
      obtain rfl : c = '.' := by simpa [hnil.1, hnil.2] using hc
      cases hdigit
    · exact ⟨_, .whole (List.ne_nil_of_mem hc) (digits (fun _ hc => hc) hpoint)⟩

/-- A text without a mark is read without a power of ten. -/
theorem readScientific?_of_unmarked {text : List Char} (h : ∀ c ∈ text, isMark c = false) :
    readScientific? text = read? text := by
  have hdrop : text.dropWhile (!isMark ·) = [] :=
    List.dropWhile_eq_nil_iff.2 fun c hc => by simp [h c hc]
  unfold readScientific?
  simp only [isMark] at hdrop
  simp only [hdrop]

/-- The first mark of a text stands before the power of ten. -/
theorem readScientific?_append {text power : List Char} {mark : Char}
    (h : ∀ c ∈ text, isMark c = false) (hmark : isMark mark = true) :
    readScientific? (text ++ mark :: power) =
      if power ≠ [] ∧ power.all Char.isDigit = true then
        (Digits.ofText? text).map (·.value (Nat.ofDigitChars 10 power 0))
      else none := by
  have pos : ∀ c ∈ text, (!isMark c) = true := fun c hc => by simp [h c hc]
  have hdrop : (text ++ mark :: power).dropWhile (!isMark ·) = mark :: power := by
    rw [List.dropWhile_append_of_pos pos, List.dropWhile_cons, hmark]
    rfl
  have htake : (text ++ mark :: power).takeWhile (!isMark ·) = text := by
    rw [List.takeWhile_append_of_pos pos, List.takeWhile_cons, hmark]
    exact List.append_nil _
  unfold readScientific?
  simp only [isMark] at hdrop htake
  simp only [hdrop, htake]

theorem readScientific?_eq_some_iff {text : List Char} {x : Float} :
    readScientific? text = some x ↔ IsLiteral text x := by
  constructor
  · intro h
    have text_eq := List.takeWhile_append_dropWhile (p := (!isMark ·)) (l := text)
    have unmarked : ∀ c ∈ text.takeWhile (!isMark ·), isMark c = false := fun c hc => by
      simpa using List.all_eq_true.1 List.all_takeWhile c hc
    cases hdrop : text.dropWhile (!isMark ·) with
    | nil =>
      rw [hdrop, List.append_nil] at text_eq
      rw [← text_eq, readScientific?_of_unmarked unmarked, text_eq, read?_eq_some_iff] at h
      obtain ⟨d, hd, rfl⟩ := h
      exact .decimal hd
    | cons mark power =>
      have hmark : isMark mark = true := by
        simpa using Text.eq_false_of_dropWhile_eq_cons hdrop
      rw [hdrop] at text_eq
      rw [← text_eq, readScientific?_append unmarked hmark] at h
      split at h
      · rename_i hpower
        obtain ⟨d, hd, rfl⟩ := Option.map_eq_some_iff.1 h
        rw [← text_eq]
        exact .scaled (Digits.ofText?_eq_some_iff.1 hd) hmark hpower.1 hpower.2
      · cases h
  · rintro (⟨hd⟩ | ⟨hd, hmark, ne_nil, digits⟩)
    · rw [readScientific?_of_unmarked fun c hc => isMark_eq_false (hd.isLiteralChar hc)]
      exact read?_eq_some_iff.2 ⟨_, hd, rfl⟩
    · rw [readScientific?_append (fun c hc => isMark_eq_false (hd.isLiteralChar hc)) hmark,
        if_pos ⟨ne_nil, digits⟩, Digits.ofText?_eq_some_iff.2 hd]
      rfl

/-- A character that is neither of a decimal nor a mark does not stand in literals. -/
theorem IsLiteral.not_mem {text : List Char} {x : Float} (h : IsLiteral text x) {c : Char}
    (hc : isLiteralChar c = false ∧ isMark c = false) : c ∉ text := by
  intro hmem
  cases h with
  | decimal hd => exact absurd (hd.isLiteralChar hmem) (by simp [hc])
  | scaled hd hmark _ digits =>
    obtain hmem | rfl | hmem := (List.mem_append.1 hmem).imp_right List.mem_cons.1
    · exact absurd (hd.isLiteralChar hmem) (by simp [hc])
    · exact absurd hmark (by simp [hc])
    · have hdigit := List.all_eq_true.1 digits c hmem
      have := hc.1
      simp [isLiteralChar, hdigit] at this

end Reckoner.Decimal
