import Reckoner.Proofs.Double.Opposite
import Reckoner.Proofs.Polynomial.Grammar

/-!
# Texts with their signs flipped

In the text of a sum the signs stand before terms and nowhere else, so a text whose signs are
flipped states the same powers with the opposite coefficients, as long as the first term gets the
sign that it lacks (`flipSigns`). Such a text starts with a sign, so it may be written behind another
one, which then states the terms of both (`States.append_flipSigns`).
-/

namespace Reckoner

open Double Reckoner.Polynomial Text Unicode

/-- The other sign; any other character stays. -/
def flipSign : Char → Char
  | '+' => '-'
  | '-' => '+'
  | c => c

/-- A side of an equation, blanks left out, with the sign of each term flipped; a first term that
has none gets a minus. -/
def flipSigns (text : List Char) : List Char :=
  let flipped := (text.filter (!isBlank ·)).map flipSign
  if flipped.head?.any isUnsigned then '-' :: flipped else flipped

/-- Terms with the opposite coefficients. -/
def opposites {α : Type} (ts : List (α × Float)) : List (α × Float) :=
  ts.map fun t => (t.1, -t.2)

/-- The other sign. -/
def Polynomial.Sign.flip : Sign → Sign
  | .plus => .minus
  | .minus => .plus

theorem flipSign_char (sign : Sign) : flipSign sign.char = sign.flip.char := by cases sign <;> rfl

theorem flip_apply (sign : Sign) (x : Float) : sign.flip.apply x = -sign.apply x := by
  cases sign with
  | plus => rfl
  | minus => exact (opposite_opposite x).symm

theorem flipSign_of_isUnsigned {c : Char} (h : isUnsigned c = true) : flipSign c = c := by
  unfold flipSign
  split
  · cases h
  · cases h
  · rfl

theorem isUnsigned_flipSign (c : Char) : isUnsigned (flipSign c) = isUnsigned c := by
  unfold flipSign
  split <;> rfl

/-- Only signs are flipped. -/
theorem flipSign_eq_iff {c d : Char} (hd : isUnsigned d = true) : flipSign c = d ↔ c = d := by
  refine ⟨fun h => ?_, fun h => h ▸ flipSign_of_isUnsigned (h ▸ hd)⟩
  rw [← h, isUnsigned_flipSign] at hd
  rw [← h, flipSign_of_isUnsigned hd]

theorem mem_map_flipSign_iff {cs : List Char} {d : Char} (hd : isUnsigned d = true) :
    d ∈ cs.map flipSign ↔ d ∈ cs := by
  simp only [List.mem_map, flipSign_eq_iff hd, exists_eq_right]

/-! ## Stars -/

theorem dropStars_map_flipSign (cs : List Char) :
    dropStars (cs.map flipSign) = (dropStars cs).map flipSign := by
  fun_induction dropStars cs with
  | case1 rest ih =>
    rw [List.map_cons, List.map_cons, List.map_cons, ← ih]
    rfl
  | case2 c rest hne ih =>
    rw [List.map_cons, List.map_cons, ← ih, dropStars]
    intro rest' hc hrest
    cases rest with
    | nil => cases hrest
    | cons d rest =>
      obtain ⟨hd, -⟩ := List.cons.inj hrest
      exact hne rest ((flipSign_eq_iff rfl).1 hc) (by rw [(flipSign_eq_iff rfl).1 hd])
  | case3 => rfl

/-- Stars are dropped in each part of a text whose second part starts with no unknown. -/
theorem dropStars_append_of_head {ds : List Char} (h : ds.head? ≠ some 'x') (cs : List Char) :
    dropStars (cs ++ ds) = dropStars cs ++ dropStars ds := by
  fun_induction dropStars cs with
  | case1 rest ih => rw [List.cons_append, List.cons_append, dropStars, ih, List.cons_append]
  | case2 c rest hne ih =>
    rw [List.cons_append, dropStars, ih, List.cons_append]
    intro rest' hc hrest
    cases rest with
    | nil => exact h (by rw [show ds = _ from hrest, List.head?_cons])
    | cons d rest =>
      obtain ⟨rfl, -⟩ := List.cons.inj hrest
      exact hne rest hc rfl
  | case3 => rfl

/-- Without its stars a text still starts with a sign or without one. -/
theorem head?_dropStars_any (cs : List Char) :
    (dropStars cs).head?.any isUnsigned = cs.head?.any isUnsigned := by
  fun_cases dropStars cs <;> rfl

/-! ## Sums -/

theorem map_flipSign_of_isTerm {text : List Char} {k : ℕ} {x : Float} (h : IsTerm text k x) :
    text.map flipSign = text :=
  (List.map_congr_left fun c hc =>
    flipSign_of_isUnsigned (List.all_eq_true.1 h.all_isUnsigned c hc)).trans (List.map_id _)

theorem AreTerms.flip {text : List Char} {ts : List (ℕ × Float)} (h : AreTerms text ts) :
    AreTerms (text.map flipSign) (opposites ts) := by
  induction h with
  | nil => exact .nil
  | cons sign h _ ih =>
    rw [List.map_cons, List.map_append, map_flipSign_of_isTerm h, flipSign_char]
    have more := AreTerms.cons sign.flip h ih
    rwa [flip_apply] at more

/-- A sum with its signs flipped, each term of it behind a sign. -/
theorem IsSum.flip {text : List Char} {ts : List (ℕ × Float)} (h : IsSum text ts) :
    AreTerms (if text.head?.any isUnsigned then '-' :: text.map flipSign else text.map flipSign)
      (opposites ts) := by
  cases h with
  | signed h ne_nil =>
    rw [h.any_head?]
    exact h.flip
  | @unsigned text rest k x ts h more =>
    have unsigned : (text ++ rest).head?.any isUnsigned = true := by
      obtain ⟨c, cs, rfl⟩ := List.exists_cons_of_ne_nil h.ne_nil
      exact List.all_eq_true.1 h.all_isUnsigned c List.mem_cons_self
    rw [unsigned, List.map_append, map_flipSign_of_isTerm h]
    exact .cons .minus h more.flip

theorem AreTerms.append {text more : List Char} {ts us : List (ℕ × Float)} (h : AreTerms text ts)
    (h' : AreTerms more us) : AreTerms (text ++ more) (ts ++ us) := by
  induction h with
  | nil => exact h'
  | cons sign h _ ih =>
    rw [List.cons_append, List.append_assoc, List.cons_append]
    exact .cons sign h ih

/-- Terms behind their signs carry a sum on. -/
theorem IsSum.append {text more : List Char} {ts us : List (ℕ × Float)} (h : IsSum text ts)
    (h' : AreTerms more us) : IsSum (text ++ more) (ts ++ us) := by
  cases h with
  | signed h ne_nil => exact .signed (h.append h') (by simp [ne_nil])
  | unsigned h rest =>
    rw [List.append_assoc, List.cons_append]
    exact .unsigned h (rest.append h')

/-! ## Texts -/

/-- The text of a sum with its signs flipped has no blanks and starts with a sign. -/
theorem flipSigns_bare (text : List Char) :
    (flipSigns text).filter (!isBlank ·) = flipSigns text ∧
      (flipSigns text).head?.any isUnsigned = false := by
  have visible : ∀ c ∈ (text.filter (!isBlank ·)).map flipSign, (!isBlank c) = true := by
    intro c hc
    obtain ⟨d, hd, rfl⟩ := List.mem_map.1 hc
    have hd := (List.mem_filter.1 hd).2
    unfold flipSign
    split
    · decide
    · decide
    · exact hd
  unfold flipSigns
  dsimp only
  split
  · rename_i h
    rw [List.filter_cons_of_pos (by decide), List.filter_eq_self.2 visible]
    exact ⟨rfl, rfl⟩
  · rename_i h
    exact ⟨List.filter_eq_self.2 visible, Bool.eq_false_iff.2 h⟩

/-- Beside the signs a text has the characters that it has with its signs flipped. -/
theorem mem_flipSigns_iff {text : List Char} {d : Char} (hd : isUnsigned d = true) :
    d ∈ flipSigns text ↔ d ∈ text.filter (!isBlank ·) := by
  have hminus : d ≠ '-' := by
    rintro rfl
    cases hd
  unfold flipSigns
  dsimp only
  split
  · rw [List.mem_cons, or_iff_right hminus, mem_map_flipSign_iff hd]
  · exact mem_map_flipSign_iff hd

theorem States.flip {text : List Char} {ts : List (ℕ × Float)} (h : States text ts) :
    AreTerms (dropStars (flipSigns text)) (opposites ts) := by
  have terms := h.isSum.flip
  rw [head?_dropStars_any, ← dropStars_map_flipSign] at terms
  have head (cs : List Char) :
      (cs.map flipSign).head?.any isUnsigned = cs.head?.any isUnsigned := by
    cases cs with
    | nil => rfl
    | cons c cs => exact isUnsigned_flipSign c
  unfold flipSigns
  dsimp only
  rw [head]
  split
  · rename_i unsigned
    rw [if_pos unsigned] at terms
    exact terms
  · rename_i signed
    rwa [if_neg signed] at terms

/-- **A text, and behind it one with its signs flipped**, state the terms of the one and the
opposite terms of the other. -/
theorem States.append_flipSigns {text more : List Char} {ts us : List (ℕ × Float)}
    (h : States text ts) (h' : States more us) :
    States (text ++ flipSigns more) (ts ++ opposites us) := by
  obtain ⟨bare, head⟩ := flipSigns_bare more
  have no_unknown : (flipSigns more).head? ≠ some 'x' := fun hx => by
    rw [hx] at head
    cases head
  have parts : dropStars ((text ++ flipSigns more).filter (!isBlank ·)) =
      dropStars (text.filter (!isBlank ·)) ++ dropStars (flipSigns more) := by
    rw [List.filter_append, bare, dropStars_append_of_head no_unknown]
  refine .of_isSum ?_
  rw [parts]
  exact h.isSum.append h'.flip

end Reckoner
