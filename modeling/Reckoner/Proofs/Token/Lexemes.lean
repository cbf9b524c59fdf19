import Mathlib.Data.List.Basic
import Reckoner.Proofs.Decimal.Grammar
import Reckoner.Proofs.Token.Reading

/-!
# Lexemes

A text that is read is cut into lexemes, one for each token: the character of a sign, the longest
run of digits and points of a number, such a run with the minus before it, or nothing, for the zero
from which a minus before a parenthesis subtracts. Where a lexeme may stand is said of it and of
what is in front of it and behind it (`Stands`), and what is read is exactly what can be cut in this
way (`read_eq_ok_iff_exists_lexemes`).

The proof goes from left to right (`Lexed`), with what the tokens in front say of the next one:
whether an operand is expected.
-/

namespace Reckoner.Token

open Decimal Text Unicode

/-- A part of a text that makes one token. -/
inductive Lexeme
  /-- A sign. -/
  | symbol (c : Char) (token : Token) (h : ofSymbol? c = some token)
  /-- A number. -/
  | literal (run : List Char) (x : Float) (h : read? run = some x)
  /-- A number with the minus before it. -/
  | signed (run : List Char) (x : Float) (h : read? run = some x)
  /-- The zero from which a minus before a parenthesis subtracts. Nothing is written for it. -/
  | implied

namespace Lexeme

/-- The characters of a lexeme. -/
def text : Lexeme → List Char
  | .symbol c _ _ => [c]
  | .literal run _ _ => run
  | .signed run _ _ => '-' :: run
  | .implied => []

/-- The token of a lexeme. -/
def token : Lexeme → Token
  | .symbol _ t _ => t
  | .literal _ x _ => .number x
  | .signed _ x _ => .number (-x)
  | .implied => .number 0

/-- The pieces of a lexeme. -/
def pieces : Lexeme → List Piece
  | .symbol c _ _ => [.single c]
  | .literal run _ _ => [.run run]
  | .signed run _ _ => [.single '-', .run run]
  | .implied => []

/-- Whether a lexeme is a sign. -/
def isSymbol : Lexeme → Bool
  | .symbol _ _ _ => true
  | .literal _ _ _ | .signed _ _ _ | .implied => false

/-- The lexeme of a subtraction. -/
def minus : Lexeme := .symbol '-' (.operator .minus) rfl

/-- The lexeme of an opening parenthesis. -/
def opening : Lexeme := .symbol '(' .opening rfl

/-- Whether a lexeme may stand in front of others, where an operand is expected or not. -/
def Fits (expects : Bool) (behind : List Lexeme) : Lexeme → Prop
  | .symbol c _ _ => expects = true → c ≠ '-'
  | .literal _ _ _ => ∀ l ∈ behind.head?, l.isSymbol = true
  | .signed _ _ _ => expects = true ∧ ∀ l ∈ behind.head?, l.isSymbol = true
  | .implied => expects = true ∧ ∃ rest, behind = minus :: opening :: rest

end Lexeme

/-- Every lexeme stands where it may; the flag says whether an operand is expected first. -/
def Lexed : Bool → List Lexeme → Prop
  | _, [] => True
  | expects, l :: ls => l.Fits expects ls ∧ Lexed l.token.expectsOperand ls

/-- The text of lexemes. -/
def spelled (ls : List Lexeme) : List Char := ls.flatMap Lexeme.text

/-! ## Signs and runs -/

theorem isLiteralChar_of_ofSymbol? {c : Char} {t : Token} (h : ofSymbol? c = some t) :
    isLiteralChar c = false := by
  unfold ofSymbol? at h
  split at h <;> first | rfl | cases h

/-- A sign is shown as it was read. -/
theorem text_of_ofSymbol? {c : Char} {t : Token} (h : ofSymbol? c = some t) :
    t.text.toList = [c] := by
  unfold ofSymbol? at h
  split at h <;> cases h <;> rfl

theorem ofSymbol?_inj {c c' : Char} {t : Token} (h : ofSymbol? c = some t)
    (h' : ofSymbol? c' = some t) : c = c' :=
  (List.cons.inj ((text_of_ofSymbol? h).symm.trans (text_of_ofSymbol? h'))).1

theorem ofSymbol?_ne_number (c : Char) (x : Float) : ofSymbol? c ≠ some (.number x) := by
  unfold ofSymbol?
  split <;> simp

theorem run_of_read? {run : List Char} {x : Float} (h : read? run = some x) :
    run ≠ [] ∧ run.all isLiteralChar = true := by
  obtain ⟨d, hd, -⟩ := read?_eq_some_iff.1 h
  exact ⟨hd.ne_nil, List.all_eq_true.2 fun _ hc => hd.isLiteralChar hc⟩

theorem readLiteral_eq_ok_iff {run : List Char} {x : Float} :
    readLiteral run = .ok x ↔ read? run = some x := by
  unfold readLiteral
  cases read? run <;> simp

/-- No number goes on where a sign follows. -/
theorem head?_spelled {ls : List Lexeme} (h : ∀ l ∈ ls.head?, l.isSymbol = true) :
    (spelled ls).head?.any isLiteralChar = false := by
  match ls with
  | [] => rfl
  | .symbol c t hc :: _ => exact isLiteralChar_of_ofSymbol? hc
  | .literal _ _ _ :: _ | .signed _ _ _ :: _ | .implied :: _ => cases h _ rfl

/-- Where no operand is expected, only a number may carry a number on. -/
theorem Lexed.isSymbol_head? {ls : List Lexeme} (h : Lexed false ls)
    (last : (spelled ls).head?.any isLiteralChar = false) : ∀ l ∈ ls.head?, l.isSymbol = true := by
  match ls with
  | [] => exact fun _ hl => by cases hl
  | .symbol c t hc :: ls =>
    intro l hl
    cases hl
    rfl
  | .literal run x hx :: ls =>
    obtain ⟨ne_nil, chars⟩ := run_of_read? hx
    cases run with
    | nil => exact absurd rfl ne_nil
    | cons c run =>
      have first : isLiteralChar c = true := List.all_eq_true.1 chars c List.mem_cons_self
      have last : isLiteralChar c = false := last
      cases first.symm.trans last
  | .signed run x hx :: ls => cases h.1.1
  | .implied :: ls => cases h.1.1

theorem spelled_ne_nil {b : Bool} {ls : List Lexeme} (h : Lexed b ls) (ne_nil : ls ≠ []) :
    spelled ls ≠ [] := by
  match ls with
  | [] => exact absurd rfl ne_nil
  | .symbol c t hc :: ls => exact List.cons_ne_nil _ _
  | .literal run x hx :: ls => exact List.append_ne_nil_of_left_ne_nil (run_of_read? hx).1 _
  | .signed run x hx :: ls => exact List.cons_ne_nil _ _
  | .implied :: ls =>
    obtain ⟨-, rest, rfl⟩ := h.1
    exact List.cons_ne_nil _ _

/-! ## From lexemes to tokens -/

theorem pieces_spelled {b : Bool} {ls : List Lexeme} (h : Lexed b ls) :
    pieces isLiteralChar (spelled ls) = ls.flatMap Lexeme.pieces := by
  induction ls generalizing b with
  | nil => rfl
  | cons l ls ih =>
    obtain ⟨fits, h⟩ := h
    rw [spelled, List.flatMap_cons, List.flatMap_cons, ← ih h]
    cases l with
    | symbol c t hc => exact pieces_cons_single (isLiteralChar_of_ofSymbol? hc) _
    | literal run x hx =>
      obtain ⟨ne_nil, chars⟩ := run_of_read? hx
      exact pieces_run_append ne_nil chars (head?_spelled fits)
    | signed run x hx =>
      obtain ⟨ne_nil, chars⟩ := run_of_read? hx
      refine (pieces_cons_single rfl _).trans ?_
      exact congrArg _ (pieces_run_append ne_nil chars (head?_spelled fits.2))
    | implied => rfl

/-- A minus before a parenthesis is read as if a zero stood before it. -/
theorem ofPieces_minus_opening (ps : List Piece) :
    ofPieces true (.single '-' :: .single '(' :: ps) =
      ofPieces false (.single '-' :: .single '(' :: ps) >>= fun ts => .ok (.number 0 :: ts) := by
  have minus : ofPieces false (.single '-' :: .single '(' :: ps) =
      ofPieces true (.single '(' :: ps) >>= fun ts => .ok (.operator .minus :: ts) :=
    @ofPieces_single false '-' (.operator .minus) (by simp) rfl _
  have opening : ofPieces true (.single '(' :: ps) =
      ofPieces true ps >>= fun ts => .ok (.opening :: ts) :=
    @ofPieces_single true '(' .opening (fun _ => by decide) rfl ps
  rw [minus, opening, ofPieces, bind_assoc, bind_assoc]
  rfl

/-- **Lexemes are read as their tokens.** -/
theorem ofPieces_of_lexed {b : Bool} {ls : List Lexeme} (h : Lexed b ls) :
    ofPieces b (ls.flatMap Lexeme.pieces) = .ok (ls.map Lexeme.token) := by
  induction ls generalizing b with
  | nil => cases b <;> rfl
  | cons l ls ih =>
    obtain ⟨fits, h⟩ := h
    have behind := ih h
    rw [List.flatMap_cons, List.map_cons]
    cases l with
    | symbol c t hc => exact (ofPieces_single fits hc _).trans (congrArg (· >>= _) behind)
    | literal run x hx =>
      change ofPieces b (.run run :: ls.flatMap Lexeme.pieces) = _
      rw [Lexeme.token, expectsOperand] at behind
      rw [ofPieces, readLiteral_eq_ok_iff.2 hx, ok_bind, behind]
      rfl
    | signed run x hx =>
      obtain ⟨rfl, -⟩ := fits
      change ofPieces true (.single '-' :: .run run :: ls.flatMap Lexeme.pieces) = _
      rw [Lexeme.token, expectsOperand] at behind
      rw [ofPieces, readLiteral_eq_ok_iff.2 hx, ok_bind, behind]
      rfl
    | implied =>
      obtain ⟨rfl, rest, rfl⟩ := fits
      exact (ofPieces_minus_opening _).trans (congrArg (· >>= _) behind)

/-! ## From a text to lexemes -/

/-- **What is read is cut into lexemes.** -/
theorem exists_lexed {b : Bool} {text : List Char} {ts : List Token}
    (h : ofPieces b (pieces isLiteralChar text) = .ok ts) :
    ∃ ls, Lexed b ls ∧ spelled ls = text ∧ ls.map Lexeme.token = ts := by
  generalize hps : pieces isLiteralChar text = ps at h
  fun_induction ofPieces b ps generalizing text ts with
  | case1 b =>
    have htext := flatMap_text_pieces isLiteralChar text
    rw [hps] at htext
    cases h
    exact ⟨[], trivial, htext, rfl⟩
  | case2 b t rest ih =>
    -- a number
    obtain ⟨ds, rfl, -, -, last, rfl⟩ := eq_append_of_pieces_eq_run hps
    obtain ⟨x, hx, h⟩ := bind_eq_ok.1 h
    obtain ⟨us, hus, h⟩ := bind_eq_ok.1 h
    cases h
    obtain ⟨ls, lexed, rfl, rfl⟩ := ih rfl hus
    exact ⟨.literal t x (readLiteral_eq_ok_iff.1 hx) :: ls, ⟨lexed.isSymbol_head? last, lexed⟩,
      rfl, rfl⟩
  | case3 rest ih =>
    -- a minus before a parenthesis
    obtain ⟨ds, rfl, -, hds⟩ := eq_cons_of_pieces_eq_single hps
    obtain ⟨es, rfl, -, rfl⟩ := eq_cons_of_pieces_eq_single hds.symm
    obtain ⟨us, hus, h⟩ := bind_eq_ok.1 h
    cases h
    obtain ⟨ls, lexed, rfl, rfl⟩ := ih rfl hus
    have behind : Lexed false (.minus :: .opening :: ls) :=
      ⟨fun h => absurd h (by decide), ⟨fun _ => by decide, lexed⟩⟩
    exact ⟨.implied :: .minus :: .opening :: ls, ⟨⟨rfl, ls, rfl⟩, behind⟩, rfl, rfl⟩
  | case4 t rest ih =>
    -- a minus before a number
    obtain ⟨ds, rfl, -, hds⟩ := eq_cons_of_pieces_eq_single hps
    obtain ⟨es, rfl, -, -, last, rfl⟩ := eq_append_of_pieces_eq_run hds.symm
    obtain ⟨x, hx, h⟩ := bind_eq_ok.1 h
    obtain ⟨us, hus, h⟩ := bind_eq_ok.1 h
    cases h
    obtain ⟨ls, lexed, rfl, rfl⟩ := ih rfl hus
    exact ⟨.signed t x (readLiteral_eq_ok_iff.1 hx) :: ls,
      ⟨⟨rfl, lexed.isSymbol_head? last⟩, lexed⟩, rfl, rfl⟩
  | case5 => cases h
  | case6 b c rest h₁ h₂ h₃ t ht ih =>
    -- any other sign
    obtain ⟨ds, rfl, -, rfl⟩ := eq_cons_of_pieces_eq_single hps
    obtain ⟨us, hus, h⟩ := bind_eq_ok.1 h
    cases h
    obtain ⟨ls, lexed, rfl, rfl⟩ := ih rfl hus
    exact ⟨.symbol c t ht :: ls, ⟨h₃, lexed⟩, rfl, rfl⟩
  | case7 => cases h

/-- What is read is what can be cut into lexemes. -/
theorem read_eq_ok_iff_lexed {text : List Char} {ts : List Token} :
    read text = .ok ts ↔ ∃ ls, ls ≠ [] ∧ Lexed true ls ∧
      spelled ls = text.filter (!isBlank ·) ∧ ls.map Lexeme.token = ts := by
  generalize hcs : text.filter (!isBlank ·) = cs
  by_cases hne : cs = []
  · subst hne
    have hread : read text = .error .empty := by rw [read, hcs]
    rw [hread]
    refine ⟨fun h => (by cases h), ?_⟩
    rintro ⟨ls, ne_nil, lexed, blank, -⟩
    exact absurd blank (spelled_ne_nil lexed ne_nil)
  · rw [read_eq_ofPieces hcs hne]
    constructor
    · intro h
      obtain ⟨ls, lexed, rfl, rfl⟩ := exists_lexed h
      exact ⟨ls, fun h => hne (by rw [h, spelled, List.flatMap_nil]), lexed, rfl, rfl⟩
    · rintro ⟨ls, -, lexed, rfl, rfl⟩
      rw [pieces_spelled lexed, ofPieces_of_lexed lexed]

/-! ## Where lexemes stand -/

/-- A run of digits and points that goes on neither in front nor behind. -/
structure IsRun (before run behind : List Char) : Prop where
  ne_nil : run ≠ []
  chars : run.all isLiteralChar = true
  first : before.getLast?.any isLiteralChar = false
  last : behind.head?.any isLiteralChar = false

/-- Whether a lexeme may stand between others. Behind a number, a percent sign or a closing
parenthesis no operand is expected, behind an operator or an opening parenthesis one is. -/
structure Stands (before : List Lexeme) (l : Lexeme) (behind : List Lexeme) : Prop where
  /-- A number has all the digits and points around it. -/
  literal : ∀ run x h, l = .literal run x h → IsRun (spelled before) run (spelled behind)
  /-- So has a number with a minus, from the minus on. -/
  signed : ∀ run x h, l = .signed run x h →
    IsRun (spelled before ++ ['-']) run (spelled behind)
  /-- Nothing but a subtraction of a parenthesis has a zero that is not written. -/
  implied : l = .implied → ∃ rest, behind.map Lexeme.token = .operator .minus :: .opening :: rest
  /-- No number follows a number. -/
  numbers : ∀ x, l.token = .number x → ∀ y, (behind.map Lexeme.token).head? ≠ some (.number y)
  /-- A subtraction stands behind an operand. -/
  minus : l.token = .operator .minus →
    ∃ t, (before.map Lexeme.token).getLast? = some t ∧ t.expectsOperand = false
  /-- A number with a minus and a zero that is not written stand in the place of an operand. -/
  operand : l = .implied ∨ (∃ run x h, l = .signed run x h) →
    ∀ t, (before.map Lexeme.token).getLast? = some t → t.expectsOperand = true

theorem expectsAfter_eq (b : Bool) (ts : List Token) :
    expectsAfter b ts = (ts.getLast?.map expectsOperand).getD b := by
  obtain rfl | ⟨us, t, rfl⟩ := ts.eq_nil_or_concat'
  · rfl
  · simp [expectsAfter]

theorem Lexed.of_append {b : Bool} {before behind : List Lexeme} (h : Lexed b (before ++ behind)) :
    Lexed (expectsAfter b (before.map Lexeme.token)) behind := by
  induction before generalizing b with
  | nil => exact h
  | cons l ls ih => exact ih h.2

theorem Lexeme.isSymbol_iff {l : Lexeme} : l.isSymbol = true ↔ ∀ x, l.token ≠ .number x := by
  cases l with
  | symbol c t h =>
    refine iff_of_true rfl fun x hx => ?_
    exact ofSymbol?_ne_number c x (h.trans (congrArg some hx))
  | literal run x h => exact iff_of_false (by simp [isSymbol]) fun h => h x rfl
  | signed run x h => exact iff_of_false (by simp [isSymbol]) fun h => h (-x) rfl
  | implied => exact iff_of_false (by simp [isSymbol]) fun h => h 0 rfl

/-- The lexeme of a sign is told by its token. -/
theorem Lexeme.eq_symbol {l : Lexeme} {c : Char} {t : Token} (h : ofSymbol? c = some t)
    (hl : l.token = t) : l = .symbol c t h := by
  subst hl
  cases l with
  | symbol d t hd =>
    cases ofSymbol?_inj h hd
    rfl
  | literal run x hx => exact absurd h (ofSymbol?_ne_number c x)
  | signed run x hx => exact absurd h (ofSymbol?_ne_number c (-x))
  | implied => exact absurd h (ofSymbol?_ne_number c 0)

/-- In front of a number stands a sign, if anything. -/
theorem Lexed.isSymbol_getLast? {b : Bool} {before behind : List Lexeme} {l : Lexeme}
    (h : Lexed b (before ++ l :: behind)) (hl : l.isSymbol = false) :
    ∀ m ∈ before.getLast?, m.isSymbol = true := by
  obtain rfl | ⟨ms, m, rfl⟩ := before.eq_nil_or_concat'
  · exact fun _ hm => by cases hm
  intro m' hm
  rw [List.getLast?_concat] at hm
  cases hm
  rw [List.append_assoc] at h
  have fits := h.of_append.1
  cases m with
  | symbol c t hc => rfl
  | literal run x hx => cases hl.symm.trans (fits l rfl)
  | signed run x hx => cases hl.symm.trans (fits.2 l rfl)
  | implied =>
    obtain ⟨-, rest, hrest⟩ := fits
    cases hrest
    cases hl

theorem getLast?_spelled {ls : List Lexeme} (h : ∀ l ∈ ls.getLast?, l.isSymbol = true) :
    (spelled ls).getLast?.any isLiteralChar = false := by
  obtain rfl | ⟨ms, m, rfl⟩ := ls.eq_nil_or_concat'
  · rfl
  have hm := h m List.getLast?_concat
  cases m with
  | symbol c t hc => simpa [spelled, Lexeme.text] using isLiteralChar_of_ofSymbol? hc
  | literal _ _ _ | signed _ _ _ | implied => cases hm

/-- Behind tokens an operand is expected as the last one says. -/
theorem expectsOperand_of_getLast? {b : Bool} {ts : List Token} (h : expectsAfter true ts = b) :
    (b = false → ∃ t, ts.getLast? = some t ∧ t.expectsOperand = false) ∧
      (b = true → ∀ t, ts.getLast? = some t → t.expectsOperand = true) := by
  rw [expectsAfter_eq] at h
  cases hlast : ts.getLast? with
  | none =>
    rw [hlast] at h
    cases h
    simp
  | some t =>
    rw [hlast] at h
    cases h
    simp

/-- **Lexemes that fit stand where they may.** -/
theorem Lexed.stands {before behind : List Lexeme} {l : Lexeme}
    (h : Lexed true (before ++ l :: behind)) : Stands before l behind := by
  obtain ⟨fits, -⟩ := h.of_append
  obtain ⟨operand, sign⟩ := @expectsOperand_of_getLast? _ (before.map Lexeme.token) rfl
  -- what a number, with or without a minus, has around it
  have ends (hbehind : ∀ m ∈ behind.head?, m.isSymbol = true) (y : Float) :
      (behind.map Lexeme.token).head? ≠ some (.number y) := by
    intro hy
    rw [List.head?_map, Option.map_eq_some_iff] at hy
    obtain ⟨m, hm, hy⟩ := hy
    exact Lexeme.isSymbol_iff.1 (hbehind m hm) y hy
  cases l with
  | symbol c t hc =>
    exact {
      literal := fun _ _ _ h => by cases h
      signed := fun _ _ _ h => by cases h
      implied := fun h => by cases h
      numbers := fun x hx => absurd (hc.trans (congrArg some hx)) (ofSymbol?_ne_number c x)
      minus := fun ht => by
        cases (show t = _ from ht)
        have hminus : c = '-' := ofSymbol?_inj hc rfl
        exact operand (Bool.eq_false_iff.2 fun expected => fits expected hminus)
      operand := by
        rintro (h | ⟨_, _, _, h⟩) <;> cases h }
  | literal run x hx =>
    obtain ⟨ne_nil, chars⟩ := run_of_read? hx
    exact {
      literal := fun _ _ _ h => by
        cases h
        exact ⟨ne_nil, chars, getLast?_spelled (h.isSymbol_getLast? rfl), head?_spelled fits⟩
      signed := fun _ _ _ h => by cases h
      implied := fun h => by cases h
      numbers := fun _ _ => ends fits
      minus := fun h => by cases h
      operand := by
        rintro (h | ⟨_, _, _, h⟩) <;> cases h }
  | signed run x hx =>
    obtain ⟨expected, fits⟩ := fits
    obtain ⟨ne_nil, chars⟩ := run_of_read? hx
    exact {
      literal := fun _ _ _ h => by cases h
      signed := fun _ _ _ h => by
        cases h
        exact ⟨ne_nil, chars, by simp [isLiteralChar], head?_spelled fits⟩
      implied := fun h => by cases h
      numbers := fun _ _ => ends fits
      minus := fun h => by cases h
      operand := fun _ => sign expected }
  | implied =>
    obtain ⟨expected, rest, rfl⟩ := fits
    exact {
      literal := fun _ _ _ h => by cases h
      signed := fun _ _ _ h => by cases h
      implied := fun _ => ⟨rest.map Lexeme.token, rfl⟩
      numbers := fun _ _ y h => by cases h
      minus := fun h => by cases h
      operand := fun _ => sign expected }

/-- **Lexemes that stand where they may fit.** The tokens in front say whether an operand is
expected. -/
theorem Lexed.of_stands {before ls : List Lexeme}
    (h : ∀ front l behind, ls = front ++ l :: behind → Stands (before ++ front) l behind) :
    Lexed (expectsAfter true (before.map Lexeme.token)) ls := by
  induction ls generalizing before with
  | nil => trivial
  | cons l ls ih =>
    have stands : Stands before l ls := by simpa using h [] l ls rfl
    obtain ⟨notOperand, operand⟩ := @expectsOperand_of_getLast? _ (before.map Lexeme.token) rfl
    -- what is behind fits since what is in front now ends with `l`
    have behind : Lexed l.token.expectsOperand ls := by
      have := @ih (before ++ [l]) fun front m rest hls => by
        simpa using h (l :: front) m rest (congrArg _ hls)
      rwa [List.map_append, expectsAfter, List.foldl_append] at this
    have expected (hl : l = .implied ∨ ∃ run x h, l = .signed run x h) :
        expectsAfter true (before.map Lexeme.token) = true := by
      by_contra hne
      obtain ⟨t, hlast, ht⟩ := notOperand (Bool.eq_false_iff.2 hne)
      cases ht.symm.trans (stands.operand hl t hlast)
    have symbols (x : Float) (hx : l.token = .number x) : ∀ m ∈ ls.head?, m.isSymbol = true :=
      fun m hm => Lexeme.isSymbol_iff.2 fun y hy =>
        stands.numbers x hx y (by rw [List.head?_map, hm, Option.map_some, hy])
    refine ⟨?_, behind⟩
    cases l with
    | symbol c t hc =>
      rintro hexpects rfl
      cases hc
      obtain ⟨t, hlast, ht⟩ := stands.minus rfl
      cases ht.symm.trans (operand hexpects t hlast)
    | literal run x hx => exact symbols x rfl
    | signed run x hx => exact ⟨expected (.inr ⟨run, x, hx, rfl⟩), symbols (-x) rfl⟩
    | implied =>
      refine ⟨expected (.inl rfl), ?_⟩
      obtain ⟨rest, hrest⟩ := stands.implied rfl
      obtain ⟨m, ms, rfl, hm, hms⟩ := List.map_eq_cons_iff.1 hrest
      obtain ⟨n, ns, rfl, hn, -⟩ := List.map_eq_cons_iff.1 hms
      refine ⟨ns, ?_⟩
      rw [Lexeme.eq_symbol (c := '-') rfl hm, Lexeme.eq_symbol (c := '(') rfl hn]
      rfl

/-- **What is read can be cut into lexemes.** A text is read as some tokens exactly if it is,
without its blanks, the text of lexemes with these tokens, at least one, that stand where they
may. -/
theorem read_eq_ok_iff_exists_lexemes (text : List Char) (ts : List Token) :
    read text = .ok ts ↔ ∃ ls : List Lexeme, ls ≠ [] ∧ spelled ls = text.filter (!isBlank ·) ∧
      ls.map Lexeme.token = ts ∧
      ∀ before l behind, ls = before ++ l :: behind → Stands before l behind := by
  rw [read_eq_ok_iff_lexed]
  constructor
  · rintro ⟨ls, ne_nil, lexed, hspelled, htokens⟩
    refine ⟨ls, ne_nil, hspelled, htokens, ?_⟩
    rintro before l behind rfl
    exact lexed.stands
  · rintro ⟨ls, ne_nil, hspelled, htokens, stands⟩
    exact ⟨ls, ne_nil, @Lexed.of_stands [] ls stands, hspelled, htokens⟩

end Reckoner.Token
