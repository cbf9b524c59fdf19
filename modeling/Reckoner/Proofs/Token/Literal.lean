import Reckoner.Proofs.Decimal.Grammar
import Reckoner.Proofs.Text.Words
import Reckoner.Proofs.Token.Reading

/-!
# Reading literals

A decimal is read as one token, its value, and a minus where an operand is expected is taken into
the value (`read_decimal`, `read_neg_decimal`).
-/

namespace Reckoner.Token

open Decimal Text Unicode

theorem isBlank_eq_false_of_isLiteralChar {c : Char} (h : isLiteralChar c = true) :
    isBlank c = false := by
  obtain h | h := (Bool.or_eq_true _ _).mp h
  · exact isBlank_eq_false_of_isWord (isWord_of_isDigit (isDigit_of_isDigit h))
  · exact of_decide_eq_true h ▸ by decide

theorem pieces_decimal {text : List Char} {d : Digits} (h : IsDecimal text d) :
    pieces isLiteralChar text = [.run text] :=
  pieces_of_all h.ne_nil (List.all_eq_true.2 fun _ hc => h.isLiteralChar hc)

theorem readLiteral_decimal {text : List Char} {d : Digits} (h : IsDecimal text d) :
    readLiteral text = .ok (d.value 0) := by
  rw [readLiteral, read?_eq_some_iff.2 ⟨d, h, rfl⟩]

theorem filter_decimal {text : List Char} {d : Digits} (h : IsDecimal text d) :
    text.filter (!isBlank ·) = text :=
  List.filter_eq_self.2 fun c hc => by
    rw [isBlank_eq_false_of_isLiteralChar (h.isLiteralChar hc)]
    rfl

theorem read_decimal {text : List Char} {d : Digits} (h : IsDecimal text d) :
    read text = .ok [.number (d.value 0)] := by
  rw [read_eq_ofPieces (filter_decimal h) h.ne_nil, pieces_decimal h, ofPieces,
    readLiteral_decimal h]
  rfl

/-- A decimal behind a minus. -/
theorem read_neg_decimal {text : List Char} {d : Digits} (h : IsDecimal text d) :
    read ('-' :: text) = .ok [.number (-d.value 0)] := by
  have solid : ('-' :: text).filter (!isBlank ·) = '-' :: text := by
    rw [List.filter_cons_of_pos (by decide), filter_decimal h]
  rw [read_eq_ofPieces solid (List.cons_ne_nil _ _), pieces_cons_single rfl, pieces_decimal h,
    ofPieces, readLiteral_decimal h]
  rfl

end Reckoner.Token
