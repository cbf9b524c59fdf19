import Reckoner.Proofs.Equation.Blanks
import Reckoner.Proofs.Wording.Verbatim

/-!
# Equations without words

A text of the characters of equations and blanks has no word to replace, but the letters that belong
to a word are left out all the same, and to the passes two unknowns side by side are such a word. So
the text words the equation that it is without its runs of unknowns (`toEquation_of_unworded`), and
it is answered as this equation is solved directly (`answerAlgebra_of_unworded`). A text that is
solved directly has no such runs.
-/

namespace Reckoner

namespace Wording

open Text Unicode

/-- Only characters of equations stand in a text, and blanks. -/
def Unworded (text : List Char) : Prop :=
  ∀ c ∈ text, isEquationChar c = true ∨ isBlank c = true

theorem unworded_of_all {text : List Char}
    (h : text.all (fun c => isEquationChar c || isBlank c) = true) : Unworded text := by
  intro c hc
  exact Bool.or_eq_true_iff.1 (List.all_eq_true.1 h c hc)

/-- A run of more than one character is left out. -/
def alone : Piece → List Char
  | .run [c] => [c]
  | .run _ => []
  | .single c => [c]

/-- A text without its runs of two or more unknowns. -/
def withoutRuns (text : List Char) : List Char := (pieces (decide <| · = 'x') text).flatMap alone

/-! ## Nothing to replace -/

theorem isEquationChar_cases {c : Char} (h : isEquationChar c = true) :
    isExpressionChar c = true ∨ c ∈ ['x', '^', '='] := by
  have signs : "x+-*/^().=".toList.all
      (fun d => isExpressionChar d || ['x', '^', '='].contains d) = true := by decide
  obtain digit | sign := (Bool.or_eq_true _ _).mp h
  · exact .inl (by rw [isExpressionChar, digit, Bool.true_or])
  · have := List.all_eq_true.1 signs c (List.contains_iff_mem.1 sign)
    rwa [Bool.or_eq_true, List.contains_iff_mem] at this

theorem lower_of_isEquationChar {c : Char} (h : isEquationChar c = true) : lower c = [c] := by
  obtain h | h := isEquationChar_cases h
  · exact lower_of_isExpressionChar h
  · simp only [List.mem_cons, List.not_mem_nil, or_false] at h
    obtain rfl | rfl | rfl := h <;> decide

/-- The unknown is the only letter. -/
theorem eq_unknown_of_isLower {c : Char} (h : isEquationChar c = true) (hc : c.isLower = true) :
    c = 'x' := by
  obtain h | h := isEquationChar_cases h
  · have := toNat_of_isLower hc
    have := toNat_lt_of_isExpressionChar h
    omega
  · simp only [List.mem_cons, List.not_mem_nil, or_false] at h
    obtain rfl | rfl | rfl := h
    · rfl
    · cases hc
    · cases hc

namespace Unworded

variable {text : List Char}

theorem tail {c : Char} (h : Unworded (c :: text)) : Unworded text :=
  fun d hd => h d (List.mem_cons_of_mem _ hd)

theorem isLower_eq_false (h : Unworded text) {c : Char} (hc : c ∈ text) (hx : c ≠ 'x') :
    c.isLower = false := by
  obtain hchar | hblank := h c hc
  · exact Bool.eq_false_iff.2 fun hlower => hx (eq_unknown_of_isLower hchar hlower)
  · exact isLower_eq_false_of_isBlank hblank

/-- There are neither capitals nor typographic signs. -/
theorem withoutSigns_eq (h : Unworded text) : withoutSigns (text.flatMap lower) = text := by
  have letters : text.flatMap lower = text := by
    induction text with
    | nil => rfl
    | cons c text ih =>
      have hc := (h c List.mem_cons_self).elim lower_of_isEquationChar lower_of_isBlank
      rw [List.flatMap_cons, hc, ih h.tail, List.singleton_append]
  rw [letters]
  exact withoutSigns_eq_self fun c hc => (h c hc).imp_right .inr

/-- No phrase starts with the unknown. -/
theorem equationRule_eq_none (h : Unworded text) {b : Option Char} {pre post : List Char}
    {c : Char} (htext : text = pre ++ c :: post) : equationRule b (c :: post) = none := by
  have hmem : c ∈ text := by simp [htext]
  by_cases hx : c = 'x'
  · subst hx
    have heads : ∀ p ∈ equationVocabulary, (p.spoken.head?.bind List.head?) ≠ some 'x' := by
      decide
    refine vocabularyRule_of_leadingWord fits_equation (fun p hp hhead => heads p hp ?_) rfl
    rw [hhead]
    rfl
  · exact vocabularyRule_eq_none fits_equation (h.isLower_eq_false hmem hx)

/-! ## Runs of unknowns -/

theorem dropSpelledX_unknown (b : Option Char) (text : List Char) :
    dropSpelledX b ('x' :: text) =
      if (b.any Char.isLower || text.head?.any Char.isLower) = true then dropSpelledX (some 'x') text
      else 'x' :: dropSpelledX (some 'x') text := by
  simp [dropSpelledX]

/-- Behind an unknown the others of its run are left out. -/
theorem dropSpelledX_replicate (n : ℕ) (rest : List Char) :
    dropSpelledX (some 'x') (List.replicate n 'x' ++ rest) = dropSpelledX (some 'x') rest := by
  induction n with
  | zero => rfl
  | succ n ih =>
    have letter : (some 'x').any Char.isLower = true := rfl
    rw [List.replicate_succ, List.cons_append, dropSpelledX_unknown, letter, Bool.true_or,
      if_pos rfl, ih]

/-- What is no unknown is kept, whatever stands before it. -/
theorem dropSpelledX_congr {text : List Char} (h : text.head? ≠ some 'x') (b b' : Option Char) :
    dropSpelledX b text = dropSpelledX b' text := by
  cases text with
  | nil => rfl
  | cons c text =>
    have hc : c ≠ 'x' := fun hc => h (by rw [hc]; rfl)
    simp [dropSpelledX, hc]

/-- A run of unknowns stays only if it is a single one. -/
theorem dropSpelledX_run {n : ℕ} {b : Option Char} (hb : b.any Char.isLower = false)
    {rest : List Char} (hrest : rest.head?.any Char.isLower = false) :
    dropSpelledX b (List.replicate (n + 1) 'x' ++ rest) =
      alone (.run (List.replicate (n + 1) 'x')) ++ dropSpelledX (some 'x') rest := by
  cases n with
  | zero =>
    rw [zero_add, List.replicate_one, List.singleton_append, dropSpelledX_unknown, hb, hrest]
    rfl
  | succ n =>
    have beside : (List.replicate (n + 1) 'x' ++ rest).head?.any Char.isLower = true := rfl
    rw [List.replicate_succ, List.cons_append, dropSpelledX_unknown, beside, Bool.or_true,
      if_pos rfl, dropSpelledX_replicate]
    rfl

/-- **Runs of two or more unknowns are left out.** The induction is on the text, a run at a time. -/
theorem dropSpelledX_eq (h : Unworded text) {b : Option Char} (hb : b.any Char.isLower = false) :
    dropSpelledX b text = withoutRuns text := by
  induction hn : text.length using Nat.strong_induction_on generalizing text b with
  | _ n ih =>
    subst hn
    cases text with
    | nil => rfl
    | cons c text =>
      by_cases hx : c = 'x'
      · obtain ⟨run, rest, hsplit, all_run, hhead⟩ : ∃ run rest, text = run ++ rest ∧
            run.all (decide <| · = 'x') = true ∧ rest.head?.any (decide <| · = 'x') = false :=
          ⟨_, _, List.takeWhile_append_dropWhile.symm, List.all_takeWhile, any_head?_dropWhile text⟩
        have unknowns : c :: run = List.replicate (run.length + 1) 'x' := by
          refine List.eq_replicate_iff.2 ⟨rfl, List.forall_mem_cons.2 ⟨hx, fun d hd => ?_⟩⟩
          exact of_decide_eq_true (List.all_eq_true.1 all_run d hd)
        have hrest : rest.head? ≠ some 'x' := fun h => by
          rw [h] at hhead
          cases hhead
        have unworded : Unworded rest := fun d hd => h d (by simp [hsplit, hd])
        have no_letter : rest.head?.any Char.isLower = false := by
          cases rest with
          | nil => rfl
          | cons d rest =>
            exact unworded.isLower_eq_false List.mem_cons_self fun hd => hrest (by rw [hd]; rfl)
        have cut : pieces (decide <| · = 'x') (c :: text) =
            .run (c :: run) :: pieces (decide <| · = 'x') rest := by
          rw [hsplit, ← List.cons_append]
          refine pieces_run_append (by simp) ?_ hhead
          rw [List.all_cons, all_run, decide_eq_true hx]
          rfl
        have shorter : rest.length < (c :: text).length := by
          rw [hsplit]
          simp only [List.length_cons, List.length_append]
          omega
        rw [withoutRuns, cut, List.flatMap_cons, ← withoutRuns, hsplit, ← List.cons_append, unknowns,
          dropSpelledX_run hb no_letter, dropSpelledX_congr hrest _ none,
          ih _ shorter unworded rfl rfl]
      · have single : withoutRuns (c :: text) = c :: withoutRuns text := by
          rw [withoutRuns, pieces_cons_single (decide_eq_false hx)]
          rfl
        have kept : dropSpelledX b (c :: text) = c :: dropSpelledX (some c) text := by
          simp [dropSpelledX, hx]
        have no_letter : (some c).any Char.isLower = false := h.isLower_eq_false List.mem_cons_self hx
        rw [single, kept, ih _ (by simp) h.tail no_letter rfl]

end Unworded

/-- Nothing comes in where runs are left out. -/
theorem mem_of_mem_withoutRuns {text : List Char} {c : Char} (h : c ∈ withoutRuns text) :
    c ∈ text := by
  have part (p : Piece) (hc : c ∈ alone p) : c ∈ p.text := by
    unfold alone at hc
    split at hc
    · exact hc
    · cases hc
    · exact hc
  obtain ⟨p, hp, hc⟩ := List.mem_flatMap.1 h
  rw [← flatMap_text_pieces (decide <| · = 'x') text]
  exact List.mem_flatMap.2 ⟨p, hp, part p hc⟩

/-- Without unknowns side by side nothing is left out. -/
theorem withoutRuns_eq_self {text : List Char} (h : ¬['x', 'x'] <:+: text) :
    withoutRuns text = text := by
  have stays : ∀ p ∈ pieces (decide <| · = 'x') text, alone p = p.text := by
    intro p hp
    obtain ⟨before, behind, hsplit⟩ := List.append_of_mem hp
    have inside : p.text <:+: text := by
      have whole := flatMap_text_pieces (decide <| · = 'x') text
      rw [hsplit, List.flatMap_append, List.flatMap_cons] at whole
      exact ⟨_, _, by rw [List.append_assoc]; exact whole⟩
    match p with
    | .single c => rfl
    | .run [] => rfl
    | .run [c] => rfl
    | .run (c :: d :: run) =>
      have unknowns := (all_of_mem_pieces hp).2
      simp only [List.all_cons, Bool.and_eq_true, decide_eq_true_eq] at unknowns
      obtain ⟨rfl, rfl, -⟩ := unknowns
      exact absurd ((List.prefix_append ['x', 'x'] run).isInfix.trans inside) h
  rw [withoutRuns, List.flatMap_congr stays, flatMap_text_pieces]

/-- **A text without words is its own equation**, without blanks and runs of unknowns. -/
theorem toEquation_of_unworded {text : List Char} (h : Unworded text) :
    toEquation text = (withoutRuns text).filter (!isBlank ·) := by
  have commas : ',' ∉ text := fun hmem => absurd (h ',' hmem) (by decide)
  have percents : '%' ∉ text := fun hmem => absurd (h '%' hmem) (by decide)
  have copied : equationRule.apply (text ++ []) = text ++ [] :=
    Rule.applyFrom_append fun pre c post htext => by
      rw [List.append_nil]
      exact h.equationRule_eq_none htext
  rw [List.append_nil] at copied
  rw [toEquation_eq (by rwa [h.withoutSigns_eq]) (by rwa [h.withoutSigns_eq]), h.withoutSigns_eq,
    copied, h.dropSpelledX_eq rfl]
  refine List.filter_congr fun c hc => ?_
  obtain hchar | hblank := h c (mem_of_mem_withoutRuns hc)
  · rw [hchar, isBlank_eq_false_of_isEquationChar hchar]
    rfl
  · have no_char : isEquationChar c = false := Bool.eq_false_iff.2 fun hchar => by
      rw [isBlank_eq_false_of_isEquationChar hchar] at hblank
      cases hblank
    rw [no_char, hblank]
    rfl

end Wording

/-! ## Answers -/

open Equation Wording

/-- What is answered is the solution of the equation that a text words. -/
theorem answerAlgebra_toOption (text : List Char) :
    (answerAlgebra text).toOption.map (·.result) =
      ((solve (toEquation text)).toOption.map (·.solution)).map (·.answer) := by
  unfold answerAlgebra
  cases solve (toEquation text) with
  | error => rfl
  | ok => rfl

/-- **Without words an equation is answered as it is solved directly**, except that runs of unknowns
are left out first; none of these are in an equation that is solved directly. -/
theorem answerAlgebra_of_unworded {text : List Char} (h : Unworded text) :
    ((∃ a, answerAlgebra text = .ok a) ↔ ∃ r, solve (withoutRuns text) = .ok r) ∧
      (∀ a r, answerAlgebra text = .ok a → solve (withoutRuns text) = .ok r →
        a.result = r.solution.answer) ∧
      (¬['x', 'x'] <:+: text → withoutRuns text = text) ∧
      ∀ r, solve text = .ok r → ¬['x', 'x'] <:+: text := by
  have same := answerAlgebra_toOption text
  rw [toEquation_of_unworded h, solve_bare, Option.map_map] at same
  refine ⟨?_, fun a r ha hr => ?_, withoutRuns_eq_self, fun r => not_infix_of_solve_eq_ok⟩
  · cases ha : answerAlgebra text <;> cases hr : solve (withoutRuns text) <;>
      simp_all [Except.toOption]
  · rw [ha, hr] at same
    exact Option.some.inj same

/-- An equation with blanks and a product. -/
theorem answerAlgebra_of_unworded_product :
    Unworded "2 * x = 6".toList ∧
      ((∃ a, answerAlgebra "2 * x = 6".toList = .ok a) ↔
        ∃ r, solve (withoutRuns "2 * x = 6".toList) = .ok r) ∧
      (∀ a r, answerAlgebra "2 * x = 6".toList = .ok a →
        solve (withoutRuns "2 * x = 6".toList) = .ok r → a.result = r.solution.answer) ∧
      (¬['x', 'x'] <:+: "2 * x = 6".toList →
        withoutRuns "2 * x = 6".toList = "2 * x = 6".toList) ∧
      ∀ r, solve "2 * x = 6".toList = .ok r → ¬['x', 'x'] <:+: "2 * x = 6".toList := by
  have unworded : Unworded "2 * x = 6".toList := unworded_of_all (by decide)
  exact ⟨unworded, answerAlgebra_of_unworded unworded⟩

/-- In `2x + 3xx = 5` the run of unknowns is left out, and the text is answered though the equation
is refused when it is solved directly. -/
theorem answerAlgebra_with_run :
    (∃ a, answerAlgebra "2x+3xx=5".toList = .ok a) ∧
      ¬∃ r, solve "2x+3xx=5".toList = .ok r := by
  have unworded : Unworded "2x+3xx=5".toList := unworded_of_all (by decide)
  have equation : toEquation "2x+3xx=5".toList = "2x+3=5".toList := by
    rw [toEquation_of_unworded unworded]
    decide
  constructor
  · have solved : (solve "2x+3=5".toList).isOk = true := by decide +kernel
    rw [← equation] at solved
    unfold answerAlgebra
    cases hr : solve (toEquation "2x+3xx=5".toList) with
    | error e =>
      rw [hr] at solved
      cases solved
    | ok r => exact ⟨_, rfl⟩
  · rintro ⟨r, hr⟩
    exact not_infix_of_solve_eq_ok hr ⟨"2x+3".toList, "=5".toList, rfl⟩

end Reckoner
