import Reckoner.Unicode.Age
import Reckoner.Unicode.Alphabetic
import Reckoner.Unicode.DecimalDigit
import Reckoner.Unicode.Extender
import Reckoner.Unicode.Mark
import Reckoner.Unicode.Unprintable

/-!
# Classes of characters

The classes by which free text is read: blanks, alphabetic characters, digits of any script, and
the characters that make up words. All follow the Unicode character database, version 17, save
that words and digits are those of version 16: a character that version 17 added may be
alphabetic, but it stands outside every word (`isWord_eq_false_of_isNew`). Each class contains its
ASCII part (`isBlank_of_isWhitespace`, `isAlphabetic_of_isAlpha`, `isDigit_of_isDigit`), and no
blank is part of a word (`isWord_eq_false_of_isBlank`).
-/

namespace Reckoner.Unicode

/-- The ranges of the property White_Space. -/
def whiteSpace : Ranges where
  entries := [
    (0x0009, 0x000D), (0x0020, 0x0020), (0x0085, 0x0085), (0x00A0, 0x00A0), (0x1680, 0x1680),
    (0x2000, 0x200A), (0x2028, 0x2029), (0x202F, 0x202F), (0x205F, 0x205F), (0x3000, 0x3000)]

/-- The ranges of the general category Pc, the low line among them. -/
def connector : Ranges where
  entries := [
    (0x005F, 0x005F), (0x203F, 0x2040), (0x2054, 0x2054), (0xFE33, 0xFE34), (0xFE4D, 0xFE4F),
    (0xFF3F, 0xFF3F)]

/-- The two joiners, which stand between letters without being seen. -/
def joinControl : Ranges where
  entries := [(0x200C, 0x200D)]

/-- The ranges of the property Default_Ignorable_Code_Point, the fillers of Hangul among them: codes
that are shown as nothing. -/
def ignorable : Ranges where
  entries := [
    (0x00AD, 0x00AD), (0x034F, 0x034F), (0x061C, 0x061C), (0x115F, 0x1160), (0x17B4, 0x17B5),
    (0x180B, 0x180F), (0x200B, 0x200F), (0x202A, 0x202E), (0x2060, 0x206F), (0x3164, 0x3164),
    (0xFE00, 0xFE0F), (0xFEFF, 0xFEFF), (0xFFA0, 0xFFA0), (0xFFF0, 0xFFF8), (0x1BCA0, 0x1BCA3),
    (0x1D173, 0x1D17A), (0xE0000, 0xE0FFF)]

/-- A blank: a character with the property White_Space. -/
def isBlank (c : Char) : Bool := whiteSpace.contains c.toNat

/-- A character with the property Alphabetic. -/
def isAlphabetic (c : Char) : Bool := alphabetic.contains c.toNat

/-- A character that version 17 added. -/
def isNew (c : Char) : Bool := age17.contains c.toNat

/-- A decimal digit of any script, as version 16 has them. -/
def isDigit (c : Char) : Bool := decimalDigit.contains c.toNat && !isNew c

/-- A character that words are made of, as version 16 has them: alphabetic, a mark, a digit, a
connector or a joiner. -/
def isWord (c : Char) : Bool :=
  (isAlphabetic c || mark.contains c.toNat || decimalDigit.contains c.toNat ||
    connector.contains c.toNat || joinControl.contains c.toNat) && !isNew c

/-- A character that cannot be told when it is shown alone: it extends the one before it, has no
shape of its own, or is shown as nothing. -/
def isHidden (c : Char) : Bool :=
  extender.contains c.toNat || unprintable.contains c.toNat || ignorable.contains c.toNat

/-! ## The ASCII part of each class -/

theorem isBlank_of_isWhitespace {c : Char} (h : c.isWhitespace = true) : isBlank c = true := by
  simp only [Char.isWhitespace, Bool.or_eq_true, decide_eq_true_eq] at h
  rcases h with ((h | h) | h) | h <;> subst h <;> decide

theorem toNat_of_isAlpha {c : Char} (h : c.isAlpha = true) :
    (65 ≤ c.toNat ∧ c.toNat ≤ 90) ∨ (97 ≤ c.toNat ∧ c.toNat ≤ 122) := by
  rcases (Bool.or_eq_true c.isUpper c.isLower).mp h with h | h
  · exact .inl (of_decide_eq_true h)
  · have h := (Bool.and_eq_true (decide (97 ≤ c.toNat)) (decide (c.toNat ≤ 122))).mp h
    exact .inr ⟨of_decide_eq_true h.1, of_decide_eq_true h.2⟩

theorem isAlphabetic_of_isAlpha {c : Char} (h : c.isAlpha = true) : isAlphabetic c = true := by
  have capitals : (0x41, 0x5A) ∈ alphabetic.entries := List.mem_of_elem_eq_true rfl
  have small : (0x61, 0x7A) ∈ alphabetic.entries := List.mem_of_elem_eq_true rfl
  obtain h | h := toNat_of_isAlpha h
  · exact Ranges.contains_iff.2 ⟨_, capitals, h⟩
  · exact Ranges.contains_iff.2 ⟨_, small, h⟩

/-- All codes below the first one that version 17 added are older. -/
theorem isNew_eq_false_of_lt {c : Char} (h : c.toNat < 0x88F) : isNew c = false := by
  have first : Ascending 0x88F age17.entries := by decide +kernel
  refine Bool.eq_false_iff.2 fun new => ?_
  obtain ⟨p, hp, reached, -⟩ := Ranges.contains_iff.1 new
  have := first.le_of_mem hp
  omega

theorem isDigit_of_isDigit {c : Char} (h : c.isDigit = true) : isDigit c = true := by
  have h : 48 ≤ c.toNat ∧ c.toNat ≤ 57 := Char.isDigit_iff_toNat.1 h
  have digits : (0x30, 0x39) ∈ decimalDigit.entries := List.mem_of_elem_eq_true rfl
  rw [isDigit, isNew_eq_false_of_lt (by omega), Ranges.contains_iff.2 ⟨_, digits, h⟩]
  rfl

/-! ## Blanks and words -/

/-- No character that version 17 added is part of a word. -/
theorem isWord_eq_false_of_isNew {c : Char} (h : isNew c = true) : isWord c = false := by
  rw [isWord, h, Bool.not_true, Bool.and_false]

/-- No blank is part of a word. -/
theorem isWord_eq_false_of_isBlank {c : Char} (h : isBlank c = true) : isWord c = false := by
  have key : ∀ n ∈ whiteSpace.codes, (alphabetic.contains n || mark.contains n ||
      decimalDigit.contains n || connector.contains n || joinControl.contains n) = false := by
    decide +kernel
  rw [isWord, isAlphabetic, key _ (Ranges.mem_codes_iff.2 h), Bool.false_and]

end Reckoner.Unicode
