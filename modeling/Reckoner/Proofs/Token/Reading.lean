import Reckoner.Proofs.Expression.Placement
import Reckoner.Proofs.Outcome
import Reckoner.Proofs.Text.Runs
import Reckoner.Token.Reader

/-!
# Reading a text in parts

A text that is cut into two parts is read one part after the other (`ofPieces_append`). What of the
first part the second one has to know is whether an operand is expected, and the tokens of the first
part say so. A part that ends with a minus sign may lack the operand of it and is not read alone
(`exists_ofPieces`).
-/

namespace Reckoner.Token

open Text Unicode

theorem read_eq_ofPieces {text cs : List Char} (h : text.filter (!isBlank ·) = cs)
    (hne : cs ≠ []) : read text = ofPieces true (pieces Decimal.isLiteralChar cs) := by
  rw [read, h]
  cases cs with
  | nil => exact absurd rfl hne
  | cons c cs => rfl

/-- A sign that is no minus in the place of an operand is a token. -/
theorem ofPieces_single {b : Bool} {c : Char} {t : Token} (hc : b = true → c ≠ '-')
    (ht : ofSymbol? c = some t) (rest : List Piece) :
    ofPieces b (.single c :: rest) =
      ofPieces t.expectsOperand rest >>= fun ts => .ok (t :: ts) := by
  rw [ofPieces]
  · rw [ht]
    rfl
  · exact fun _ hb _ => hc hb
  · exact fun _ _ hb _ => hc hb
  · exact hc

/-- Tokens of pieces read one part after the other. -/
theorem ofPieces_append {b : Bool} {ps : List Piece} {ts : List Token}
    (h : ofPieces b ps = .ok ts) (qs : List Piece) :
    ofPieces b (ps ++ qs) = ofPieces (expectsAfter b ts) qs >>= fun us => .ok (ts ++ us) := by
  fun_induction ofPieces b ps generalizing ts with
  | case1 b =>
    cases h
    exact (bind_pure _).symm
  | case2 b t rest ih =>
    obtain ⟨x, hx, h⟩ := bind_eq_ok.1 h
    obtain ⟨us, hus, h⟩ := bind_eq_ok.1 h
    cases h
    rw [List.cons_append, ofPieces, hx, ok_bind, ih hus, bind_assoc]
    rfl
  | case3 rest ih =>
    obtain ⟨us, hus, h⟩ := bind_eq_ok.1 h
    cases h
    rw [List.cons_append, List.cons_append, ofPieces, ih hus, bind_assoc]
    rfl
  | case4 t rest ih =>
    obtain ⟨x, hx, h⟩ := bind_eq_ok.1 h
    obtain ⟨us, hus, h⟩ := bind_eq_ok.1 h
    cases h
    rw [List.cons_append, List.cons_append, ofPieces, hx, ok_bind, ih hus, bind_assoc]
    rfl
  | case5 rest h₁ h₂ => cases h
  | case6 b c rest h₁ h₂ h₃ t ht ih =>
    obtain ⟨us, hus, h⟩ := bind_eq_ok.1 h
    cases h
    rw [List.cons_append, ofPieces_single h₃ ht, ih hus, bind_assoc]
    rfl
  | case7 => cases h

theorem getLast?_tail_ne {p q : Piece} {rest : List Piece} (h : (p :: rest).getLast? ≠ some q) :
    rest.getLast? ≠ some q := by
  cases rest with
  | nil => simp
  | cons r rest => rwa [List.getLast?_cons_cons] at h

/-- A part that does not end with a minus sign is read alone if it is read in front of more. -/
theorem exists_ofPieces {b : Bool} {ps qs : List Piece} {ts : List Token}
    (h : ofPieces b (ps ++ qs) = .ok ts) (hlast : ps.getLast? ≠ some (.single '-')) :
    ∃ us, ofPieces b ps = .ok us := by
  fun_induction ofPieces b ps generalizing ts with
  | case1 b => exact ⟨[], rfl⟩
  | case2 b t rest ih =>
    rw [List.cons_append, ofPieces] at h
    obtain ⟨x, hx, h⟩ := bind_eq_ok.1 h
    obtain ⟨us, hus, -⟩ := bind_eq_ok.1 h
    obtain ⟨vs, hvs⟩ := ih hus (getLast?_tail_ne hlast)
    rw [hx, ok_bind, hvs]
    exact ⟨_, rfl⟩
  | case3 rest ih =>
    rw [List.cons_append, List.cons_append, ofPieces] at h
    obtain ⟨us, hus, -⟩ := bind_eq_ok.1 h
    obtain ⟨vs, hvs⟩ := ih hus (getLast?_tail_ne (getLast?_tail_ne hlast))
    rw [hvs]
    exact ⟨_, rfl⟩
  | case4 t rest ih =>
    rw [List.cons_append, List.cons_append, ofPieces] at h
    obtain ⟨x, hx, h⟩ := bind_eq_ok.1 h
    obtain ⟨us, hus, -⟩ := bind_eq_ok.1 h
    obtain ⟨vs, hvs⟩ := ih hus (getLast?_tail_ne (getLast?_tail_ne hlast))
    rw [hx, ok_bind, hvs]
    exact ⟨_, rfl⟩
  | case5 rest h₁ h₂ =>
    match rest with
    | [] => exact absurd rfl hlast
    | .run t :: rest => exact absurd rfl (h₂ t rest)
    | .single c :: rest =>
      have hc : c ≠ '(' := fun hc => h₁ rest (by rw [hc])
      simp [ofPieces, hc] at h
  | case6 b c rest h₁ h₂ h₃ t ht ih =>
    rw [List.cons_append, ofPieces_single h₃ ht] at h
    obtain ⟨us, hus, -⟩ := bind_eq_ok.1 h
    obtain ⟨vs, hvs⟩ := ih hus (getLast?_tail_ne hlast)
    rw [hvs]
    exact ⟨_, rfl⟩
  | case7 b c rest h₁ h₂ h₃ ht =>
    rw [List.cons_append, ofPieces] at h
    · rw [ht] at h
      cases h
    · exact fun _ hb _ => h₃ hb
    · exact fun _ _ hb _ => h₃ hb
    · exact h₃

/-- The last sign of a text is its last token. -/
theorem exists_append_of_getLast {b : Bool} {ps : List Piece} {ts : List Token}
    (h : ofPieces b ps = .ok ts) {c : Char} (hlast : ps.getLast? = some (.single c)) {t : Token}
    (ht : ofSymbol? c = some t) : ∃ us, ts = us ++ [t] := by
  have tail {p : Piece} {rest : List Piece} (hne : rest ≠ [])
      (hlast : (p :: rest).getLast? = some (.single c)) : rest.getLast? = some (.single c) := by
    rwa [List.getLast?_cons_of_ne_nil hne] at hlast
  have grow (vs : List Token) {us : List Token} (h : ∃ ws, us = ws ++ [t]) :
      ∃ ws, vs ++ us = ws ++ [t] := by
    obtain ⟨ws, rfl⟩ := h
    exact ⟨vs ++ ws, (List.append_assoc _ _ _).symm⟩
  fun_induction ofPieces b ps generalizing ts with
  | case1 b => cases hlast
  | case2 b t' rest ih =>
    obtain ⟨x, -, h⟩ := bind_eq_ok.1 h
    obtain ⟨us, hus, h⟩ := bind_eq_ok.1 h
    cases h
    cases rest with
    | nil => cases hlast
    | cons p rest => exact grow [_] (ih hus (tail (by simp) hlast))
  | case3 rest ih =>
    obtain ⟨us, hus, h⟩ := bind_eq_ok.1 h
    cases h
    cases rest with
    | nil =>
      cases hlast
      cases ht
      cases hus
      exact ⟨[.number 0, .operator .minus], rfl⟩
    | cons p rest =>
      exact grow [_, _, _] (ih hus (tail (by simp) (tail (by simp) hlast)))
  | case4 t' rest ih =>
    obtain ⟨x, -, h⟩ := bind_eq_ok.1 h
    obtain ⟨us, hus, h⟩ := bind_eq_ok.1 h
    cases h
    cases rest with
    | nil => cases hlast
    | cons p rest =>
      exact grow [_] (ih hus (tail (by simp) (tail (by simp) hlast)))
  | case5 rest h₁ h₂ => cases h
  | case6 b c' rest h₁ h₂ h₃ t' ht' ih =>
    obtain ⟨us, hus, h⟩ := bind_eq_ok.1 h
    cases h
    cases rest with
    | nil =>
      cases hlast
      cases hus
      cases ht.symm.trans ht'
      exact ⟨[], rfl⟩
    | cons p rest => exact grow [_] (ih hus (tail (by simp) hlast))
  | case7 => cases h

end Reckoner.Token
