import Reckoner.Json.Writer
import Reckoner.Unicode.Ranges

/-!
# Texts of one line

A text with no control in it and no separator of lines or paragraphs is one line, whatever a reader
takes for the end of a line (`Unbroken`). What is put together of such texts is one too, and so are
the digits of a number and a JSON literal.
-/

namespace Reckoner.Text

open Unicode

/-- The ranges of the controls and of the two separators. -/
def breaking : Ranges where
  entries := [(0x0000, 0x001F), (0x007F, 0x009F), (0x2028, 0x2029)]

/-- Whether a character is a control or ends a line or a paragraph. -/
def isBreaking (c : Char) : Bool := breaking.contains c.toNat

/-- A text that is one line for every reader. -/
def Unbroken (text : String) : Prop := ∀ c ∈ text.toList, isBreaking c = false

instance (text : String) : Decidable (Unbroken text) :=
  List.decidableBAll (fun c => isBreaking c = false) text.toList

/-! ## Characters -/

/-- The characters of ASCII that are no controls. -/
theorem isBreaking_eq_false_of_le {c : Char} (low : 0x20 ≤ c.toNat) (high : c.toNat < 0x7F) :
    isBreaking c = false := by
  refine Bool.eq_false_iff.2 fun breaks => ?_
  obtain ⟨p, hp, bounds⟩ := Ranges.contains_iff.1 breaks
  simp only [breaking, List.mem_cons, List.not_mem_nil, or_false] at hp
  obtain rfl | rfl | rfl := hp
  · omega
  · omega
  · omega

theorem isBreaking_of_isDigit {c : Char} (h : c.isDigit = true) : isBreaking c = false := by
  have h : 48 ≤ c.toNat ∧ c.toNat ≤ 57 := Char.isDigit_iff_toNat.1 h
  exact isBreaking_eq_false_of_le (by omega) (by omega)

/-! ## Texts put together -/

theorem unbroken_ofList {text : List Char} :
    Unbroken (String.ofList text) ↔ ∀ c ∈ text, isBreaking c = false := by
  rw [Unbroken, String.toList_ofList]

theorem Unbroken.append {s t : String} (hs : Unbroken s) (ht : Unbroken t) :
    Unbroken (s ++ t) := by
  intro c hc
  rw [String.toList_append, List.mem_append] at hc
  exact hc.elim (hs c) (ht c)

theorem Unbroken.join {parts : List String} (h : ∀ part ∈ parts, Unbroken part) :
    Unbroken (String.join parts) := by
  induction parts with
  | nil => decide
  | cons part parts ih =>
    obtain ⟨hpart, hparts⟩ := List.forall_mem_cons.1 h
    rw [String.join_cons]
    exact hpart.append (ih hparts)

theorem Unbroken.intercalate {separator : String} (hs : Unbroken separator) {parts : List String}
    (h : ∀ part ∈ parts, Unbroken part) : Unbroken (separator.intercalate parts) := by
  induction parts with
  | nil => simp [Unbroken]
  | cons part parts ih =>
    obtain ⟨hpart, hparts⟩ := List.forall_mem_cons.1 h
    cases parts with
    | nil => simpa using hpart
    | cons next parts =>
      rw [String.intercalate_cons_cons]
      exact (hpart.append hs).append (ih hparts)

/-! ## Numbers and literals -/

theorem unbroken_toString (n : Nat) : Unbroken (toString n) := by
  rw [Nat.toString_eq_ofList_toDigits, unbroken_ofList]
  exact fun c hc =>
    isBreaking_of_isDigit (Nat.isDigit_of_mem_toDigits (by decide) (by decide) hc)

end Reckoner.Text

namespace Reckoner.Json

open Text

theorem unbroken_writeString {s : String} (h : Unbroken s) : Unbroken (writeString s) := by
  have quote : isBreaking '"' = false := by decide
  rw [writeString, unbroken_ofList]
  intro d hd
  rw [List.cons_append, List.mem_cons, List.mem_append, List.mem_singleton, List.mem_flatMap] at hd
  obtain rfl | ⟨c, hc, hd⟩ | rfl := hd
  · exact quote
  · obtain ⟨rfl, -⟩ | ⟨low, high⟩ := eq_or_visible_of_mem_escape hd
    · exact h d hc
    · exact isBreaking_eq_false_of_le low high
  · exact quote

theorem unbroken_writeStrings {items : List String} (h : ∀ item ∈ items, Unbroken item) :
    Unbroken (writeStrings items) := by
  have parts : ∀ part ∈ items.map writeString, Unbroken part :=
    List.forall_mem_map.2 fun item hitem => unbroken_writeString (h item hitem)
  have separator : Unbroken "," := by decide
  exact (Unbroken.append (by decide) (separator.intercalate parts)).append (by decide)

theorem unbroken_writeObject {members : List (String × String)}
    (h : ∀ m ∈ members, Unbroken m.1 ∧ Unbroken m.2) : Unbroken (writeObject members) := by
  have parts : ∀ part ∈ members.map fun m => writeString m.1 ++ ":" ++ m.2, Unbroken part :=
    List.forall_mem_map.2 fun m hm =>
      ((unbroken_writeString (h m hm).1).append (by decide)).append (h m hm).2
  have separator : Unbroken "," := by decide
  exact (Unbroken.append (by decide) (separator.intercalate parts)).append (by decide)

end Reckoner.Json
