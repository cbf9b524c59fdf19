/-!
# Runs of characters

A text is cut into the longest runs of the characters of one class and the single characters
between them. Nothing is lost (`flatMap_text_pieces`), and a run holds only characters of the class
and at least one of them (`all_of_mem_pieces`).
-/

namespace Reckoner.Text

/-- A part of a text: a run of characters of a class, or one character outside it. -/
inductive Piece
  | run (text : List Char)
  | single (c : Char)
  deriving DecidableEq

/-- The characters of a piece. -/
def Piece.text : Piece → List Char
  | .run t => t
  | .single c => [c]

/-- Put `c`, a character of the class, before pieces: it joins a run that they start with. -/
def Piece.consRun (c : Char) : List Piece → List Piece
  | .run t :: rest => .run (c :: t) :: rest
  | rest => .run [c] :: rest

/-- The pieces of a text for the class `p`. -/
def pieces (p : Char → Bool) : List Char → List Piece
  | [] => []
  | c :: cs => if p c then Piece.consRun c (pieces p cs) else .single c :: pieces p cs

theorem flatMap_text_consRun (c : Char) (ps : List Piece) :
    (Piece.consRun c ps).flatMap Piece.text = c :: ps.flatMap Piece.text := by
  unfold Piece.consRun
  split <;> simp [Piece.text]

theorem flatMap_text_pieces (p : Char → Bool) (cs : List Char) :
    (pieces p cs).flatMap Piece.text = cs := by
  induction cs with
  | nil => rfl
  | cons c cs ih =>
    by_cases h : p c <;> simp [pieces, h, flatMap_text_consRun, ih, Piece.text]

theorem all_of_mem_pieces {p : Char → Bool} {cs t : List Char} (h : .run t ∈ pieces p cs) :
    t ≠ [] ∧ t.all p = true := by
  induction cs generalizing t with
  | nil => simp [pieces] at h
  | cons c cs ih =>
    by_cases hc : p c
    · simp only [pieces, hc, reduceIte, Piece.consRun] at h
      split at h
      · rename_i u rest hp
        rcases List.mem_cons.1 h with h | h
        · cases h
          simpa [hc] using (ih (hp ▸ List.mem_cons_self)).2
        · exact ih (hp ▸ List.mem_cons_of_mem _ h)
      · rcases List.mem_cons.1 h with h | h
        · cases h
          simp [hc]
        · exact ih h
    · simp only [pieces, hc, Bool.false_eq_true, reduceIte, List.mem_cons, reduceCtorEq,
        false_or] at h
      exact ih h

end Reckoner.Text
