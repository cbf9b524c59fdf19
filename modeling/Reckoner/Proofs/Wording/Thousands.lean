import Reckoner.Proofs.Text.Fusion
import Reckoner.Wording.Passes

/-!
# Commas between digits

The pass for thousands separators leaves out commas that stand between two digits and nothing else
(`Thinned`, `thinned_applyFrom_thousandsRule`), so it leaves alone what is found by small letters
and blanks (`Thinned.exists_append_iff`). What no such comma changes is the same before and after
`dropThousands` (`dropThousands_congr`). A sign keeps the separators on its two sides apart
(`dropThousands_split`), and a text without digits has none (`dropThousands_append`).
-/

namespace Reckoner.Wording

open Text Unicode

/-- The second text is the first one, which stands behind `before`, without some of the commas
between two digits. -/
inductive Thinned : Option Char → List Char → List Char → Prop
  | nil {before : Option Char} : Thinned before [] []
  | keep {before : Option Char} {c : Char} {text thin : List Char} (h : Thinned (some c) text thin) :
    Thinned before (c :: text) (c :: thin)
  | drop {d e : Char} {text thin : List Char} (before : isDigit d = true) (behind : isDigit e = true)
    (h : Thinned (some e) text thin) : Thinned (some d) (',' :: e :: text) (e :: thin)

/-! ## The pass -/

theorem thousandsRule_eq_some_iff {before : Option Char} {text : List Char} {hit : Hit} :
    thousandsRule before text = some hit ↔ ∃ d e f g rest, text = [d, ',', e, f, g] ++ rest ∧
      [d, e, f, g].all isDigit = true ∧ goesOn rest = false ∧ hit = ⟨5, [d, e, f, g]⟩ := by
  constructor
  · intro h
    unfold thousandsRule at h
    split at h
    · rename_i d e f g rest
      split at h
      · rename_i digits
        cases h
        rw [Bool.and_eq_true, Bool.not_eq_true'] at digits
        exact ⟨d, e, f, g, rest, rfl, digits.1, digits.2, rfl⟩
      · cases h
    · cases h
  · rintro ⟨d, e, f, g, rest, rfl, digits, hrest, rfl⟩
    have hrest : rest.head?.any isWord = false := hrest
    simp [thousandsRule, digits, hrest]

theorem thousandsRule_eq_some {before : Option Char} {text : List Char} {hit : Hit}
    (h : thousandsRule before text = some hit) : ∃ d e f g rest,
      text = [d, ',', e, f, g] ++ rest ∧ hit = ⟨5, [d, e, f, g]⟩ ∧ isDigit d = true ∧
        isDigit e = true := by
  obtain ⟨d, e, f, g, rest, rfl, digits, -, rfl⟩ := thousandsRule_eq_some_iff.1 h
  simp only [List.all_cons, Bool.and_eq_true] at digits
  exact ⟨d, e, f, g, rest, rfl, rfl, digits.1, digits.2.1⟩

/-- One pass leaves out commas between digits. -/
theorem thinned_applyFrom_thousandsRule (before : Option Char) (text : List Char) :
    Thinned before text (thousandsRule.applyFrom before 0 text) := by
  induction hn : text.length using Nat.strong_induction_on generalizing before text with
  | _ n ih =>
    subst hn
    cases text with
    | nil => exact .nil
    | cons c cs =>
      cases h : thousandsRule before (c :: cs) with
      | none =>
        rw [Rule.applyFrom_copy h]
        exact .keep (ih _ (by simp) _ _ rfl)
      | some hit =>
        obtain ⟨d, e, f, g, rest, htext, rfl, hd, he⟩ := thousandsRule_eq_some h
        rw [htext] at h ih ⊢
        rw [Rule.applyFrom_take h rfl (by simp)]
        have shorter : rest.length < ([d, ',', e, f, g] ++ rest).length := by simp; omega
        exact .keep (.drop hd he (.keep (.keep (ih _ shorter _ _ rfl))))

/-- **What does not depend on commas between digits does not depend on `dropThousands`.** -/
theorem dropThousands_congr {α : Type} {f : List Char → α}
    (h : ∀ text thin, Thinned none text thin → f text = f thin) (text : List Char) :
    f (dropThousands text) = f text := by
  fun_induction dropThousands text with
  | case1 text next _ ih => exact ih.trans (h _ _ (thinned_applyFrom_thousandsRule none text)).symm
  | case2 => rfl

/-! ## Texts in parts -/

theorem Thinned.length_le {before : Option Char} {text thin : List Char}
    (h : Thinned before text thin) : thin.length ≤ text.length := by
  induction h with
  | nil => rfl
  | keep _ ih => exact Nat.succ_le_succ ih
  | drop _ _ _ ih =>
    simp only [List.length_cons]
    omega

theorem Thinned.eq_of_length {before : Option Char} {text thin : List Char}
    (h : Thinned before text thin) (hlen : text.length ≤ thin.length) : thin = text := by
  induction h with
  | nil => rfl
  | keep _ ih => rw [ih (Nat.le_of_succ_le_succ hlen)]
  | drop _ _ h =>
    have := h.length_le
    simp only [List.length_cons] at hlen
    omega

/-- The pass does not look back. -/
theorem applyFrom_thousandsRule (before before' : Option Char) (text : List Char) :
    thousandsRule.applyFrom before 0 text = thousandsRule.applyFrom before' 0 text := by
  have same : thousandsRule before text = thousandsRule before' text :=
    Option.ext fun hit => by rw [thousandsRule_eq_some_iff, thousandsRule_eq_some_iff]
  cases text with
  | nil => rfl
  | cons => rw [Rule.applyFrom, Rule.applyFrom, same]

/-- Where a pass changes nothing, nothing is left out. -/
theorem dropThousands_of_apply_eq {text : List Char} (h : thousandsRule.apply text = text) :
    dropThousands text = text := by
  rw [dropThousands, h]
  exact if_neg (lt_irrefl _)

/-- A pass more changes nothing. -/
theorem dropThousands_apply (text : List Char) :
    dropThousands (thousandsRule.apply text) = dropThousands text := by
  have thinned := thinned_applyFrom_thousandsRule none text
  by_cases h : (thousandsRule.apply text).length < text.length
  · rw [dropThousands.eq_1 text]
    exact (if_pos h).symm
  · exact congrArg dropThousands (thinned.eq_of_length (Nat.le_of_not_lt h))

/-- Behind a text without digits the pass starts anew. -/
theorem apply_thousandsRule_append {text : List Char} (h : ∀ c ∈ text, isDigit c = false)
    (rest : List Char) : thousandsRule.apply (text ++ rest) = text ++ thousandsRule.apply rest := by
  have copied : thousandsRule.applyFrom none 0 (text ++ rest) =
      text ++ thousandsRule.applyFrom (text.getLast?.or none) 0 rest := by
    refine Rule.applyFrom_append fun pre c post htext => ?_
    refine Option.eq_none_iff_forall_ne_some.2 fun hit hhit => ?_
    obtain ⟨d, _, _, _, _, hsplit, -, digit, -⟩ := thousandsRule_eq_some hhit
    obtain ⟨rfl, -⟩ := List.cons_eq_cons.1 hsplit
    rw [h c (by simp [htext])] at digit
    cases digit
  rw [Rule.apply, copied, applyFrom_thousandsRule _ none, ← Rule.apply]

/-- **A text without digits keeps no thousands separators from the text behind it.** -/
theorem dropThousands_append {text : List Char} (h : ∀ c ∈ text, isDigit c = false)
    (rest : List Char) : dropThousands (text ++ rest) = text ++ dropThousands rest := by
  induction hn : rest.length using Nat.strong_induction_on generalizing rest with
  | _ n ih =>
    subst hn
    rw [dropThousands, dropThousands.eq_1 rest]
    simp only [apply_thousandsRule_append h, List.length_append, Nat.add_lt_add_iff_left]
    split
    · exact ih _ ‹_› _ rfl
    · rfl

/-- Where a text ends with a sign, the pass takes the same with and without what is behind. -/
theorem apply_thousandsRule_split {rest : List Char} (hrest : goesOn rest = false)
    (comma : rest.head? ≠ some ',') (text : List Char) :
    thousandsRule.apply (text ++ rest) = thousandsRule.apply text ++ thousandsRule.apply rest := by
  have same (before : Option Char) (c : Char) (post : List Char) :
      thousandsRule before (c :: post ++ rest) = thousandsRule before (c :: post) := by
    refine Option.ext fun hit => ?_
    rw [thousandsRule_eq_some_iff, thousandsRule_eq_some_iff]
    constructor
    · rintro ⟨d, e, f, g, more, hsplit, digits, hmore, rfl⟩
      obtain ⟨tail, hlong, rfl⟩ | ⟨tail, hshort, rfl⟩ := List.append_eq_append_iff.1 hsplit
      · cases tail with
        | nil =>
          rw [List.append_nil] at hlong
          exact ⟨d, e, f, g, [], hlong.symm, digits, rfl, rfl⟩
        | cons t tail =>
          obtain ⟨rfl, hpost⟩ := List.cons_eq_cons.1 hlong
          have mem : t ∈ [',', e, f, g] := by simp [hpost]
          obtain rfl | mem := List.mem_cons.1 mem
          · exact absurd rfl comma
          · have word := isWord_of_isDigit (List.all_eq_true.1 digits t (List.mem_cons_of_mem d mem))
            have no_word : isWord t = false := hrest
            rw [no_word] at word
            cases word
      · refine ⟨d, e, f, g, tail, hshort, digits, ?_, rfl⟩
        cases tail with
        | nil => rfl
        | cons => exact hmore
    · rintro ⟨d, e, f, g, more, hsplit, digits, hmore, rfl⟩
      refine ⟨d, e, f, g, more ++ rest, by rw [hsplit, List.append_assoc], digits, ?_, rfl⟩
      cases more with
      | nil => exact hrest
      | cons => exact hmore
  have short {b : Option Char} {text : List Char} {hit : Hit} (h : thousandsRule b text = some hit) :
      hit.length ≤ text.length := by
    obtain ⟨_, _, _, _, more, rfl, -, -, rfl⟩ := thousandsRule_eq_some_iff.1 h
    simp
  rw [Rule.apply, Rule.applyFrom_split (r := thousandsRule) short (fun b _ c post _ => same b c post)
    (Nat.zero_le _), applyFrom_thousandsRule (text.getLast?.or none) none]
  rfl

/-- Where a text starts with a sign, it does so without the thousands separators. -/
theorem head?_apply_thousandsRule {text : List Char} (h : goesOn text = false) :
    (thousandsRule.apply text).head? = text.head? := by
  cases text with
  | nil => rfl
  | cons c text =>
    have no_digit : ∀ d ∈ [c], isDigit d = false := by
      intro d hd
      cases List.mem_singleton.1 hd
      refine Bool.eq_false_iff.2 fun digit => ?_
      have no_word : isWord c = false := h
      rw [isWord_of_isDigit digit] at no_word
      cases no_word
    rw [← List.singleton_append, apply_thousandsRule_append no_digit]
    rfl

/-- **A sign keeps thousands apart**: the separators are left out on both sides of it. The induction
is on the length of the text, which a pass with an effect shortens on one of the sides. -/
theorem dropThousands_split {text rest : List Char} (hrest : goesOn rest = false)
    (comma : rest.head? ≠ some ',') :
    dropThousands (text ++ rest) = dropThousands text ++ dropThousands rest := by
  induction hn : (text ++ rest).length using Nat.strong_induction_on generalizing text rest with
  | _ n ih =>
    subst hn
    have split := apply_thousandsRule_split hrest comma text
    have start := head?_apply_thousandsRule hrest
    by_cases h : (thousandsRule.apply (text ++ rest)).length < (text ++ rest).length
    · rw [split] at h
      rw [← dropThousands_apply, split, ih _ h (by rwa [goesOn, start]) (by rwa [start]) rfl,
        dropThousands_apply, dropThousands_apply]
    · have unchanged := (thinned_applyFrom_thousandsRule none _).eq_of_length (Nat.le_of_not_lt h)
      have parts : thousandsRule.apply text ++ thousandsRule.apply rest = text ++ rest :=
        split.symm.trans unchanged
      have left := (thinned_applyFrom_thousandsRule none text).length_le
      have right := (thinned_applyFrom_thousandsRule none rest).length_le
      have lengths := congrArg List.length parts
      rw [List.length_append, List.length_append] at lengths
      obtain ⟨htext, hrest⟩ := List.append_inj parts (by
        have : (thousandsRule.apply text).length ≤ text.length := left
        have : (thousandsRule.apply rest).length ≤ rest.length := right
        omega)
      rw [dropThousands_of_apply_eq unchanged, dropThousands_of_apply_eq htext,
        dropThousands_of_apply_eq hrest]

/-! ## What commas between digits leave alone -/

namespace Thinned

variable {before : Option Char} {text thin : List Char}

theorem any_eq (h : Thinned before text thin) :
    text.any (!isBlank ·) = thin.any (!isBlank ·) := by
  induction h with
  | nil => rfl
  | keep _ ih => rw [List.any_cons, List.any_cons, ih]
  | @drop d e _ _ _ behind _ _ =>
    simp [isBlank_eq_false_of_isWord (isWord_of_isDigit behind)]

/-- Behind anything but a digit the first character stays. -/
theorem head?_eq (h : Thinned before text thin) (hbefore : before.any isDigit = false) :
    text.head? = thin.head? := by
  cases h with
  | nil => rfl
  | keep => rfl
  | drop digit =>
    have : isDigit _ = false := hbefore
    rw [digit] at this
    cases this

theorem getLast?_eq (h : Thinned before text thin) : text.getLast? = thin.getLast? := by
  induction h with
  | nil => rfl
  | keep _ ih => rw [List.getLast?_cons, List.getLast?_cons, ih]
  | drop _ _ _ ih =>
    rw [List.getLast?_cons, List.getLast?_cons, List.getLast?_cons, ih, Option.getD_some]

/-- Small letters and blanks at the start stay. -/
theorem append_left {a rest : List Char} (ha : ∀ c ∈ a, c.isLower = true ∨ isBlank c = true)
    (h : Thinned before (a ++ rest) thin) :
    ∃ more, thin = a ++ more ∧ Thinned (a.getLast?.or before) rest more := by
  induction a generalizing before thin with
  | nil => exact ⟨thin, rfl, h⟩
  | cons c a ih =>
    generalize htext : c :: a ++ rest = text at h
    cases h with
    | nil => cases htext
    | keep h =>
      cases htext
      obtain ⟨more, rfl, hmore⟩ := ih (fun d hd => ha d (List.mem_cons_of_mem _ hd)) h
      exact ⟨more, rfl, getLast?_cons_or c a before ▸ hmore⟩
    | drop =>
      obtain ⟨rfl, -⟩ := List.cons_eq_cons.1 htext
      exact absurd (ha ',' List.mem_cons_self) (by decide)

/-- Small letters and blanks at the start have been there before. -/
theorem append_right {a more : List Char} (ha : ∀ c ∈ a, c.isLower = true ∨ isBlank c = true)
    (h : Thinned before text (a ++ more)) :
    ∃ rest, text = a ++ rest ∧ Thinned (a.getLast?.or before) rest more := by
  induction a generalizing before text with
  | nil => exact ⟨text, rfl, h⟩
  | cons c a ih =>
    generalize hthin : c :: a ++ more = thin at h
    cases h with
    | nil => cases hthin
    | keep h =>
      cases hthin
      obtain ⟨rest, rfl, hrest⟩ := ih (fun d hd => ha d (List.mem_cons_of_mem _ hd)) h
      exact ⟨rest, rfl, getLast?_cons_or c a before ▸ hrest⟩
    | drop _ digit =>
      obtain ⟨rfl, -⟩ := List.cons_eq_cons.1 hthin
      cases (isDigit_eq_false (ha c List.mem_cons_self)).symm.trans digit

/-- A text of words stands in both texts, and ends a word in both, or in none. -/
theorem exists_append_iff {a : List Char} (h : Thinned before text thin)
    (ha : ∀ c ∈ a, c.isLower = true ∨ isBlank c = true)
    (hlast : a.getLast?.any Char.isLower = true) :
    (∃ rest, text = a ++ rest ∧ goesOn rest = false) ↔
      ∃ more, thin = a ++ more ∧ goesOn more = false := by
  obtain ⟨c, hc, hlower⟩ : ∃ c, a.getLast? = some c ∧ c.isLower = true := by
    simpa [Option.any_eq_true] using hlast
  have no_digit : (a.getLast?.or before).any isDigit = false := by
    rw [hc]
    exact isDigit_eq_false (.inl hlower)
  constructor
  · rintro ⟨rest, rfl, hrest⟩
    obtain ⟨more, rfl, hmore⟩ := h.append_left ha
    exact ⟨more, rfl, by rwa [goesOn, ← hmore.head?_eq no_digit]⟩
  · rintro ⟨more, rfl, hmore⟩
    obtain ⟨rest, rfl, hrest⟩ := h.append_right ha
    exact ⟨rest, rfl, by rwa [goesOn, hrest.head?_eq no_digit]⟩

end Thinned

theorem goesOn_dropThousands (text : List Char) : goesOn (dropThousands text) = goesOn text :=
  dropThousands_congr (fun _ _ h => by rw [goesOn, goesOn, h.head?_eq rfl]) text

end Reckoner.Wording
