import Reckoner.Proofs.Decimal.Restored
import Reckoner.Proofs.Token.Lexemes
import Reckoner.Proofs.Token.Literal

/-!
# Tokens that are shown

The list of tokens of a text is shown without what the text said besides: a minus of a number is
shown in its value, and the zero from which a minus before a parenthesis subtracts is shown like any
other number. The list that is shown is a text, and is read as the same tokens (`read_render`), as
long as no number of the text has more than ten places: a lexeme is shown as a lexeme that stands in
the same place (`Lexed.shown`), and a number with at most ten places keeps its value.
-/

namespace Reckoner.Token

open Decimal Double Text Unicode

/-- The same token. Numbers are compared as numbers, so the two zeros are the same. -/
def Same : Token → Token → Prop
  | .number x, .number y => (x == y) = true
  | s, t => s = t

/-! ## Numbers -/

theorem read?_renderUnits (n : ℕ) :
    read? (renderUnits false n) = some ((shownDigits n).value 0) :=
  read?_eq_some_iff.2 ⟨_, isDecimal_renderUnits n, rfl⟩

/-- The lexeme that a number is shown by. -/
def shownNumber (x : Float) : Lexeme :=
  if value x < 0 then .signed _ _ (read?_renderUnits (shownUnits x))
  else .literal _ _ (read?_renderUnits (shownUnits x))

/-- A number is shown as the text of its lexeme, and as the number that it is. -/
theorem shownNumber_spec {x : Float} (h : Restored x) :
    (shownNumber x).text = Decimal.render x ∧ Same (.number x) (shownNumber x).token := by
  obtain ⟨finite, same⟩ := h
  have read := (isNearest_shown x).isFinite
  rw [render_of_isFinite finite, shownNumber]
  by_cases hneg : value x < 0
  · have shown : shownUnits x ≠ 0 := fun h0 => by
      rw [value_of_shownUnits_eq_zero h0, abs_of_neg hneg] at same
      linarith
    rw [if_pos hneg, decide_eq_true hneg, renderUnits_negative, if_neg shown]
    refine ⟨rfl, (beq_iff finite (by rw [isFinite_neg, read])).2 ?_⟩
    rw [value_neg, same, abs_of_neg hneg, neg_neg]
  · rw [if_neg hneg, decide_eq_false hneg]
    refine ⟨rfl, (beq_iff finite read).2 ?_⟩
    rw [same, abs_of_nonneg (not_lt.1 hneg)]

/-! ## Lexemes -/

namespace Lexeme

/-- The lexeme that is shown for one that was read. -/
def shown : Lexeme → Lexeme
  | .symbol c t h => .symbol c t h
  | .literal _ x _ => shownNumber x
  | .signed _ x _ => shownNumber (-x)
  | .implied => shownNumber 0

/-- Whether a lexeme has no number, or one with at most ten places and a finite value. -/
def IsShort (l : Lexeme) : Prop := ∀ run, .run run ∈ l.pieces → Decimal.IsShort run

variable {l : Lexeme}

theorem shown_spec (h : l.IsShort) :
    l.shown.text = l.token.text.toList ∧ Same l.token l.shown.token := by
  have number {x : Float} (hx : Restored x) :
      (shownNumber x).text = (Token.number x).text.toList ∧
        Same (.number x) (shownNumber x).token := by
    rw [Token.text, Decimal.text, String.toList_ofList]
    exact shownNumber_spec hx
  cases l with
  | symbol c t hc =>
    refine ⟨(text_of_ofSymbol? hc).symm, ?_⟩
    cases t with
    | number x => exact absurd hc (ofSymbol?_ne_number c x)
    | operator _ | percent | opening | closing => exact rfl
  | literal run x hx => exact number ((h run List.mem_cons_self).restored hx).1
  | signed run x hx =>
    exact number ((h run (List.mem_cons_of_mem _ List.mem_cons_self)).restored hx).1.neg
  | implied => exact number restored_zero

theorem isSymbol_shownNumber (x : Float) : (shownNumber x).isSymbol = false := by
  unfold shownNumber
  split <;> rfl

theorem expectsOperand_shownNumber (x : Float) :
    (shownNumber x).token.expectsOperand = false := by
  unfold shownNumber
  split <;> rfl

theorem isSymbol_shown (l : Lexeme) : l.shown.isSymbol = l.isSymbol := by
  cases l with
  | symbol c t h => rfl
  | literal run x h => exact isSymbol_shownNumber x
  | signed run x h => exact isSymbol_shownNumber (-x)
  | implied => exact isSymbol_shownNumber 0

theorem expectsOperand_shown (l : Lexeme) :
    l.shown.token.expectsOperand = l.token.expectsOperand := by
  cases l with
  | symbol c t h => rfl
  | literal run x h => exact expectsOperand_shownNumber x
  | signed run x h => exact expectsOperand_shownNumber (-x)
  | implied => exact expectsOperand_shownNumber 0

/-- In the place of an operand a number may be shown with or without a minus. -/
theorem fits_shownNumber (x : Float) {behind : List Lexeme}
    (h : ∀ l ∈ behind.head?, l.isSymbol = true) : (shownNumber x).Fits true behind := by
  unfold shownNumber
  split
  · exact ⟨rfl, h⟩
  · exact h

/-- What is shown of a lexeme fits where the lexeme does. -/
theorem fits_shown {b : Bool} {behind : List Lexeme} (short : l.IsShort) (h : l.Fits b behind) :
    l.shown.Fits b (behind.map shown) := by
  have symbols (hbehind : ∀ m ∈ behind.head?, m.isSymbol = true) :
      ∀ m ∈ (behind.map shown).head?, m.isSymbol = true := by
    rw [List.head?_map]
    rintro m hm
    obtain ⟨n, hn, rfl⟩ := Option.map_eq_some_iff.1 hm
    exact (isSymbol_shown n).trans (hbehind n hn)
  cases l with
  | symbol c t hc => exact h
  | literal run x hx =>
    have nonneg := ((short run List.mem_cons_self).restored hx).2
    rw [shown, shownNumber, if_neg nonneg.not_gt]
    exact symbols h
  | signed run x hx =>
    obtain ⟨rfl, h⟩ := h
    exact fits_shownNumber _ (symbols h)
  | implied =>
    obtain ⟨rfl, rest, rfl⟩ := h
    refine fits_shownNumber _ fun m hm => ?_
    cases hm
    rfl

/-- A lexeme has no blanks. -/
theorem filter_text (l : Lexeme) : l.text.filter (!isBlank ·) = l.text := by
  have chars {run : List Char} {x : Float} (h : read? run = some x) :
      run.filter (!isBlank ·) = run := by
    obtain ⟨d, hd, -⟩ := read?_eq_some_iff.1 h
    exact filter_decimal hd
  cases l with
  | symbol c t h =>
    have solid : isBlank c = false := by
      unfold ofSymbol? at h
      split at h <;> first | decide | cases h
    exact List.filter_cons_of_pos (by rw [solid]; rfl)
  | literal run x h => exact chars h
  | signed run x h => rw [text, List.filter_cons_of_pos (by decide), chars h]
  | implied => rfl

end Lexeme

/-- What is shown of lexemes is lexemes, in the same places. -/
theorem Lexed.shown {b : Bool} {ls : List Lexeme} (h : Lexed b ls) (short : ∀ l ∈ ls, l.IsShort) :
    Lexed b (ls.map Lexeme.shown) := by
  induction ls generalizing b with
  | nil => trivial
  | cons l ls ih =>
    obtain ⟨fits, h⟩ := h
    obtain ⟨hl, hls⟩ := List.forall_mem_cons.1 short
    refine ⟨Lexeme.fits_shown hl fits, ?_⟩
    rw [Lexeme.expectsOperand_shown]
    exact ih h hls

/-- A separator that is dropped leaves the parts. -/
theorem filter_intercalate {p : Char → Bool} {separator : List Char}
    (h : separator.filter p = []) (parts : List (List Char)) :
    (separator.intercalate parts).filter p = parts.flatMap (List.filter p) := by
  induction parts with
  | nil => rfl
  | cons part parts ih =>
    cases parts with
    | nil => simp
    | cons next parts =>
      rw [List.intercalate_cons_cons, List.filter_append, List.filter_append, h, ih,
        List.append_nil]
      rfl

/-- Without its blanks, what is shown is the text of what is shown of the lexemes. -/
theorem filter_render {ls : List Lexeme} (short : ∀ l ∈ ls, l.IsShort) :
    (render (ls.map Lexeme.token)).toList.filter (!isBlank ·) = spelled (ls.map Lexeme.shown) := by
  rw [render, String.toList_intercalate, filter_intercalate (by decide), List.flatMap_map,
    List.flatMap_map, List.flatMap_map, spelled, List.flatMap_map]
  refine List.flatMap_congr fun l hl => ?_
  rw [← (Lexeme.shown_spec (short l hl)).1, Lexeme.filter_text]

/-- **The list of tokens that is shown is read as the same tokens**, if every number of the text has
at most ten places and a finite value. -/
theorem read_render {text : List Char} {ts : List Token} (h : read text = .ok ts)
    (short : ∀ run, .run run ∈ pieces isLiteralChar (text.filter (!isBlank ·)) →
      Decimal.IsShort run) :
    ∃ us, read (render ts).toList = .ok us ∧ List.Forall₂ Same ts us := by
  obtain ⟨ls, ne_nil, lexed, hspelled, rfl⟩ := read_eq_ok_iff_lexed.1 h
  have short : ∀ l ∈ ls, l.IsShort := fun l hl run hrun => by
    refine short run ?_
    rw [← hspelled, pieces_spelled lexed]
    exact List.mem_flatMap.2 ⟨l, hl, hrun⟩
  have shown : read (render (ls.map Lexeme.token)).toList =
      .ok ((ls.map Lexeme.shown).map Lexeme.token) :=
    read_eq_ok_iff_lexed.2 ⟨ls.map Lexeme.shown, by simpa using ne_nil, lexed.shown short,
      (filter_render short).symm, rfl⟩
  refine ⟨_, shown, ?_⟩
  rw [List.map_map, List.forall₂_map_left_iff, List.forall₂_map_right_iff, List.forall₂_same]
  exact fun l hl => (Lexeme.shown_spec (short l hl)).2

/-- The zero in front and the sign of the last zero are not those of the text. -/
theorem read_render_minus_opening :
    ∃ ts us, read "-(.5 - -0)".toList = .ok ts ∧ read (render ts).toList = .ok us ∧
      List.Forall₂ Same ts us := by
  have cut : pieces isLiteralChar ("-(.5 - -0)".toList.filter (!isBlank ·)) =
      [.single '-', .single '(', .run ['.', '5'], .single '-', .single '-', .run ['0'],
        .single ')'] := by decide
  have answered : (read "-(.5 - -0)".toList).isOk = true := by decide +kernel
  cases h : read "-(.5 - -0)".toList with
  | error fault =>
    rw [h] at answered
    cases answered
  | ok ts =>
    obtain ⟨us, hus, same⟩ := read_render h fun run hrun => by
      rw [cut] at hrun
      simp only [List.mem_cons, Piece.run.injEq, reduceCtorEq, List.not_mem_nil, or_false,
        false_or] at hrun
      obtain rfl | rfl := hrun
      · exact ⟨⟨[], ['5']⟩, @IsDecimal.point [] ['5'] (.inr (by decide)) rfl rfl, by decide,
          by decide +kernel⟩
      · exact ⟨⟨['0'], []⟩, .whole (by decide) rfl, by decide, by decide +kernel⟩
    exact ⟨ts, us, rfl, hus, same⟩

end Reckoner.Token
