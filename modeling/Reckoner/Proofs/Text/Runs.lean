import Reckoner.Text.Runs

/-!
# Cutting a text into runs

A character outside the class cuts a text in two (`pieces_append_single`), and a run in front of a
text that does not go on with the class is a piece (`pieces_run_append`). The first piece of a text
tells how the text begins (`eq_append_of_pieces_eq_run`, `eq_cons_of_pieces_eq_single`).
-/

namespace Reckoner.Text

variable {p : Char → Bool}

theorem consRun_append_single (a c : Char) (ps qs : List Piece) :
    Piece.consRun a (ps ++ .single c :: qs) = Piece.consRun a ps ++ .single c :: qs := by
  match ps with
  | [] => rfl
  | .run _ :: _ => rfl
  | .single _ :: _ => rfl

theorem pieces_cons_single {c : Char} (hc : p c = false) (cs : List Char) :
    pieces p (c :: cs) = .single c :: pieces p cs := by
  rw [pieces, hc]
  rfl

/-- A character outside the class cuts a text. -/
theorem pieces_append_single {c : Char} (hc : p c = false) (cs ds : List Char) :
    pieces p (cs ++ c :: ds) = pieces p cs ++ .single c :: pieces p ds := by
  induction cs with
  | nil => simp [pieces, hc]
  | cons a cs ih =>
    by_cases ha : p a = true
    · simp only [List.cons_append, pieces, ha, reduceIte, ih, consRun_append_single]
    · simp only [List.cons_append, pieces, ha, ih]
      rfl

theorem pieces_of_all {cs : List Char} (hne : cs ≠ []) (h : cs.all p = true) :
    pieces p cs = [.run cs] := by
  induction cs with
  | nil => exact absurd rfl hne
  | cons c cs ih =>
    obtain ⟨hc, hcs⟩ := (Bool.and_eq_true _ _).mp (List.all_cons ▸ h)
    rw [pieces, if_pos hc]
    cases cs with
    | nil => rfl
    | cons d cs => rw [ih (by simp) hcs]; rfl

/-- A run ends where the text does not go on with the class. -/
theorem pieces_run_append {cs ds : List Char} (hne : cs ≠ []) (hcs : cs.all p = true)
    (hds : ds.head?.any p = false) : pieces p (cs ++ ds) = .run cs :: pieces p ds := by
  cases ds with
  | nil => simpa [pieces] using pieces_of_all hne hcs
  | cons d ds =>
    have hd : p d = false := hds
    rw [pieces_append_single hd, pieces_of_all hne hcs, pieces_cons_single hd]
    rfl

/-- What a run takes from a text that does not go on with its class. -/
theorem takeWhile_run {run rest : List Char} (hrun : run.all p = true)
    (hrest : rest.head?.any p = false) : (run ++ rest).takeWhile p = run := by
  rw [List.takeWhile_append_of_pos (List.all_eq_true.1 hrun)]
  cases rest with
  | nil => exact List.append_nil run
  | cons c rest =>
    have hc : p c = false := hrest
    simp [hc]

theorem any_head?_dropWhile (cs : List Char) : (cs.dropWhile p).head?.any p = false := by
  have := List.head?_dropWhile_not p cs
  cases h : (cs.dropWhile p).head? with
  | none => rfl
  | some d => simpa [h] using this

theorem drop_length_takeWhile (cs : List Char) :
    cs.drop (cs.takeWhile p).length = cs.dropWhile p := by
  have : (cs.takeWhile p ++ cs.dropWhile p).drop (cs.takeWhile p).length = cs.dropWhile p :=
    List.drop_left
  rwa [List.takeWhile_append_dropWhile] at this

theorem eq_false_of_dropWhile_eq_cons {c : Char} {cs ds : List Char}
    (h : cs.dropWhile p = c :: ds) : p c = false := by
  have := any_head?_dropWhile (p := p) cs
  rwa [h] at this

/-- A text that starts with the class starts with a run. -/
theorem pieces_cons_run {c : Char} (hc : p c = true) (cs : List Char) :
    pieces p (c :: cs) =
      .run ((c :: cs).takeWhile p) :: pieces p ((c :: cs).dropWhile p) := by
  have hne : (c :: cs).takeWhile p ≠ [] := by simp [hc]
  have := pieces_run_append hne List.all_takeWhile (any_head?_dropWhile (c :: cs))
  rwa [List.takeWhile_append_dropWhile] at this

theorem eq_append_of_pieces_eq_run {cs t : List Char} {rest : List Piece}
    (h : pieces p cs = .run t :: rest) :
    ∃ ds, cs = t ++ ds ∧ t ≠ [] ∧ t.all p = true ∧ ds.head?.any p = false ∧
      rest = pieces p ds := by
  cases cs with
  | nil => cases h
  | cons c cs =>
    by_cases hc : p c = true
    · rw [pieces_cons_run hc] at h
      cases h
      exact ⟨(c :: cs).dropWhile p, List.takeWhile_append_dropWhile.symm, by simp [hc],
        List.all_takeWhile, any_head?_dropWhile _, rfl⟩
    · rw [pieces_cons_single (Bool.eq_false_iff.2 hc)] at h
      cases h

theorem eq_cons_of_pieces_eq_single {cs : List Char} {c : Char} {rest : List Piece}
    (h : pieces p cs = .single c :: rest) : ∃ ds, cs = c :: ds ∧ p c = false ∧ rest = pieces p ds := by
  cases cs with
  | nil => cases h
  | cons d ds =>
    by_cases hd : p d = true
    · rw [pieces_cons_run hd] at h
      cases h
    · have hd := Bool.eq_false_iff.2 hd
      rw [pieces_cons_single hd] at h
      cases h
      exact ⟨ds, rfl, hd, rfl⟩

end Reckoner.Text
