import Reckoner.Proofs.Text.Words

/-!
# Passes one after the other

Rules that are applied one after the other are applied in one reading of the text, the first rule
that takes something at a place before the others (`firstOf`), if they do not get in the way of
each other: what a rule writes is nothing that a later one looks for and keeps words apart
(`IsTidy`), and inside of what a later rule takes an earlier one takes nothing (`Precedes`).
`foldl_apply_eq_firstOf` puts this together. Where no rule takes anything across a place, the texts
before and behind it are read one by one (`Rule.applyFrom_split`).
-/

namespace Reckoner.Text

open Unicode

/-! ## One rule -/

theorem Rule.applyFrom_copy {r : Rule} {b : Option Char} {c : Char} {cs : List Char}
    (h : r b (c :: cs) = none) : r.applyFrom b 0 (c :: cs) = c :: r.applyFrom (some c) 0 cs := by
  simp [applyFrom, h]

theorem getLast?_cons_or (c : Char) (cs : List Char) (b : Option Char) :
    (c :: cs).getLast?.or b = cs.getLast?.or (some c) := by
  rw [List.getLast?_cons]
  cases cs.getLast? <;> rfl

/-- What is spoken for is passed over. -/
theorem Rule.applyFrom_length (r : Rule) (b : Option Char) (a rest : List Char) :
    r.applyFrom b a.length (a ++ rest) = r.applyFrom (a.getLast?.or b) 0 rest := by
  induction a generalizing b with
  | nil => rfl
  | cons c a ih =>
    rw [List.length_cons, List.cons_append, applyFrom, ih, getLast?_cons_or]

/-- What a rule takes is replaced. -/
theorem Rule.applyFrom_take {r : Rule} {b : Option Char} {a rest : List Char} {h : Hit}
    (hr : r b (a ++ rest) = some h) (hlen : h.length = a.length) (hne : a ≠ []) :
    r.applyFrom b 0 (a ++ rest) = h.replacement ++ r.applyFrom (a.getLast?.or b) 0 rest := by
  cases a with
  | nil => exact absurd rfl hne
  | cons c a =>
    have skip := r.applyFrom_length (some c) a rest
    rw [List.cons_append] at hr ⊢
    simp only [applyFrom, hr, hlen, List.length_cons, Nat.add_sub_cancel, skip, getLast?_cons_or]

/-- A text in which a rule takes nothing is copied. -/
theorem Rule.applyFrom_append {r : Rule} {a : List Char} {b : Option Char} {rest : List Char}
    (h : ∀ pre c post, a = pre ++ c :: post → r (pre.getLast?.or b) (c :: post ++ rest) = none) :
    r.applyFrom b 0 (a ++ rest) = a ++ r.applyFrom (a.getLast?.or b) 0 rest := by
  induction a generalizing b with
  | nil => rfl
  | cons c a ih =>
    have hc : r b (c :: (a ++ rest)) = none := h [] c a rfl
    rw [List.cons_append, applyFrom_copy hc, ih, List.cons_append, getLast?_cons_or]
    rintro pre d post rfl
    exact getLast?_cons_or c pre b ▸ h (c :: pre) d post rfl

/-- A text is read apart from what stands behind it if the rule takes the same in it with and
without that, which is never more than there is. -/
theorem Rule.applyFrom_split {r : Rule}
    (short : ∀ {b text hit}, r b text = some hit → hit.length ≤ text.length) {a rest : List Char}
    (same : ∀ b pre c post, a = pre ++ c :: post → r b (c :: post ++ rest) = r b (c :: post))
    {b : Option Char} {taken : ℕ} (h : taken ≤ a.length) :
    r.applyFrom b taken (a ++ rest) =
      r.applyFrom b taken a ++ r.applyFrom (a.getLast?.or b) 0 rest := by
  induction a generalizing b taken with
  | nil =>
    cases Nat.le_zero.1 h
    rfl
  | cons c a ih =>
    have ih {taken : ℕ} (h : taken ≤ a.length) := @ih (fun b pre d post ha =>
      same b (c :: pre) d post (by rw [ha, List.cons_append])) (some c) taken h
    rw [getLast?_cons_or]
    cases taken with
    | succ taken =>
      exact ih (Nat.le_of_succ_le_succ h)
    | zero =>
      have hc : r b (c :: (a ++ rest)) = r b (c :: a) := same b [] c a rfl
      rw [List.cons_append, applyFrom, applyFrom, hc]
      cases hrc : r b (c :: a) with
      | none => rw [ih (Nat.zero_le _), List.cons_append]
      | some hit =>
        have next : hit.length - 1 ≤ a.length := by
          have := short hrc
          rw [List.length_cons] at this
          omega
        simp only [ih next, List.append_assoc]

/-- A text is copied if it has no character that stands wherever a rule takes something. -/
theorem Rule.apply_of_not_mem {r : Rule} {d : Char} {text : List Char}
    (needs : ∀ b text hit, r b text = some hit → d ∈ text) (h : d ∉ text) : r.apply text = text := by
  have copied : r.applyFrom none 0 (text ++ []) = text ++ _ :=
    applyFrom_append fun pre c post htext =>
      Option.eq_none_iff_forall_ne_some.2 fun hit hhit => h (by
        have := needs _ _ _ hhit
        rw [htext]
        exact List.mem_append_right pre (by simpa using this))
  rw [List.append_nil] at copied
  exact copied.trans (List.append_nil text)

/-- A rule that keeps words apart: it takes something up to a place where no word goes on. At the
start of a word it writes what is no word; elsewhere it keeps the first character, which is of no
word and no blank. It writes no small letters, and not only blanks. -/
structure Rule.IsTidy (r : Rule) : Prop where
  cut {b : Option Char} {text : List Char} {h : Hit} (hr : r b text = some h) :
    ∃ a rest, text = a ++ rest ∧ a ≠ [] ∧ h.length = a.length ∧ goesOn rest = false
  start {b : Option Char} {c : Char} {cs : List Char} {h : Hit} (hr : r b (c :: cs) = some h) :
    (opensWord b = true ∧ isWord c = true ∧ goesOn h.replacement = false) ∨
      (isWord c = false ∧ isBlank c = false ∧ h.replacement.head? = some c)
  no_letter {b : Option Char} {text : List Char} {h : Hit} (hr : r b text = some h) :
    ∀ d ∈ h.replacement, d.isLower = false
  not_blank {b : Option Char} {text : List Char} {h : Hit} (hr : r b text = some h) :
    ∃ d ∈ h.replacement, isBlank d = false

namespace Rule.IsTidy

variable {r : Rule} (hr : r.IsTidy) {b : Option Char}

include hr

theorem length_le {text : List Char} {hit : Hit} (h : r b text = some hit) :
    hit.length ≤ text.length := by
  obtain ⟨a, rest, rfl, -, hlen, -⟩ := hr.cut h
  rw [hlen, List.length_append]
  omega

theorem inside {c : Char} {cs : List Char} (hb : opensWord b = false) (hc : isWord c = true) :
    r b (c :: cs) = none := by
  cases h : r b (c :: cs) with
  | none => rfl
  | some hit =>
    obtain ⟨hb', -, -⟩ | ⟨hc', -, -⟩ := hr.start h
    · rw [hb] at hb'
      cases hb'
    · rw [hc] at hc'
      cases hc'

theorem blank {c : Char} {cs : List Char} (hc : isBlank c = true) : r b (c :: cs) = none := by
  cases h : r b (c :: cs) with
  | none => rfl
  | some hit =>
    obtain ⟨-, hc', -⟩ | ⟨-, hc', -⟩ := hr.start h
    · rw [isWord_eq_false_of_isBlank hc] at hc'
      cases hc'
    · rw [hc] at hc'
      cases hc'

/-- A text with no word at its start keeps its first character. -/
theorem head?_applyFrom {text : List Char} (h : goesOn text = false) :
    (r.applyFrom b 0 text).head? = text.head? := by
  cases text with
  | nil => rfl
  | cons c cs =>
    have hc : isWord c = false := h
    cases hhit : r b (c :: cs) with
    | none => rw [Rule.applyFrom_copy hhit, List.head?_cons, List.head?_cons]
    | some hit =>
      obtain ⟨-, hc', -⟩ | ⟨-, -, hhead⟩ := hr.start hhit
      · rw [hc] at hc'
        cases hc'
      · simp [Rule.applyFrom, hhit, List.head?_append, hhead]

theorem goesOn_applyFrom {text : List Char} (h : goesOn text = false) :
    goesOn (r.applyFrom b 0 text) = false := by
  rw [goesOn, hr.head?_applyFrom h]
  exact h

/-- A text in which a word goes on keeps its first character, too. -/
theorem head?_applyFrom_inside {text : List Char} (h : opensWord b = false) :
    (r.applyFrom b 0 text).head? = text.head? := by
  cases text with
  | nil => rfl
  | cons c cs =>
    by_cases hc : isWord c = true
    · rw [Rule.applyFrom_copy (hr.inside h hc), List.head?_cons, List.head?_cons]
    · exact hr.head?_applyFrom (Bool.eq_false_iff.2 hc)

/-- A text of blanks stays one, and no other text becomes one. -/
theorem any_applyFrom (b : Option Char) (text : List Char) :
    (r.applyFrom b 0 text).any (!isBlank ·) = text.any (!isBlank ·) := by
  induction hn : text.length using Nat.strong_induction_on generalizing b text with
  | _ n ih =>
    subst hn
    cases text with
    | nil => rfl
    | cons c cs =>
      cases h : r b (c :: cs) with
      | none => rw [Rule.applyFrom_copy h, List.any_cons, List.any_cons, ih _ (by simp) _ _ rfl]
      | some hit =>
        have solid : isBlank c = false := Bool.eq_false_iff.2 fun hc => by
          rw [hr.blank hc] at h
          cases h
        obtain ⟨d, hd, hblank⟩ := hr.not_blank h
        have written : hit.replacement.any (!isBlank ·) = true :=
          List.any_eq_true.2 ⟨d, hd, by rw [hblank]; rfl⟩
        rw [Rule.applyFrom, h]
        simp [List.any_append, written, solid]

end Rule.IsTidy

/-! ## Two rules -/

/-- The first rule where it takes something, else the second one. -/
def Rule.orElse (r s : Rule) : Rule := fun b text => (r b text).or (s b text)

/-- A rule does not disturb one that is applied after it: the later one starts with small letters,
takes the same before and after, and inside of what it takes the earlier one takes nothing. -/
structure Rule.Precedes (r s : Rule) : Prop where
  letter {b : Option Char} {c : Char} (cs : List Char) (hc : c.isLower = false) :
    s b (c :: cs) = none
  same {b : Option Char} {text : List Char} (h : r b text = none) :
    s b (r.applyFrom b 0 text) = s b text
  keep {b : Option Char} {text : List Char} {hit : Hit} (h : r b text = none)
    (hs : s b text = some hit) :
    ∃ a rest, text = a ++ rest ∧ a ≠ [] ∧ hit.length = a.length ∧
      r.applyFrom b 0 text = a ++ r.applyFrom (a.getLast?.or b) 0 rest

/-- **Two passes are one.** The induction is on the length of the text; behind what the first rule
takes the second one sees another character before, but no word goes on there. -/
theorem Rule.Precedes.applyFrom_orElse {r s : Rule} (h : r.Precedes s) (hr : r.IsTidy)
    {b b' : Option Char} {text : List Char} (hb : b = b' ∨ goesOn text = false) :
    (r.orElse s).applyFrom b 0 text = s.applyFrom b' 0 (r.applyFrom b 0 text) := by
  induction hn : text.length using Nat.strong_induction_on generalizing b b' text with
  | _ n ih =>
    have shorter {a rest : List Char} (htext : text = a ++ rest) (hne : a ≠ []) :
        rest.length < n := by
      have := List.length_pos_iff.2 hne
      rw [← hn, htext, List.length_append]
      omega
    cases text with
    | nil => rfl
    | cons c cs =>
      cases hrc : r b (c :: cs) with
      | some hit =>
        obtain ⟨a, rest, htext, hne, hlen, hrest⟩ := hr.cut hrc
        have both : (r.orElse s) b (c :: cs) = some hit := by rw [orElse, hrc, Option.some_or]
        have written : s.applyFrom b' 0 (hit.replacement ++ r.applyFrom (a.getLast?.or b) 0 rest) =
            hit.replacement ++
              s.applyFrom (hit.replacement.getLast?.or b') 0 (r.applyFrom (a.getLast?.or b) 0 rest) := by
          refine applyFrom_append fun pre d post hd => h.letter _ ?_
          exact hr.no_letter hrc d (by simp [hd])
        have := @ih _ (shorter htext hne) (a.getLast?.or b) (hit.replacement.getLast?.or b') rest
          (.inr hrest) rfl
        rw [htext] at hrc both ⊢
        rw [applyFrom_take both hlen hne, applyFrom_take hrc hlen hne, written, this]
      | none =>
        cases hsc : s b (c :: cs) with
        | some hit =>
          have hb : b = b' := hb.resolve_right fun hgo => by
            rw [h.letter cs (isLower_eq_false_of_not_isWord hgo)] at hsc
            cases hsc
          subst hb
          obtain ⟨a, rest, htext, hne, hlen, happly⟩ := h.keep hrc hsc
          have both : (r.orElse s) b (c :: cs) = some hit := by
            rw [orElse, hrc, Option.none_or, hsc]
          have kept := (h.same hrc).trans hsc
          have := ih _ (shorter htext hne) (b := a.getLast?.or b) (.inl rfl) rfl
          rw [happly] at kept ⊢
          rw [htext] at both ⊢
          rw [applyFrom_take both hlen hne, applyFrom_take kept hlen hne, this]
        | none =>
          have both : (r.orElse s) b (c :: cs) = none := by rw [orElse, hrc, hsc, Option.none_or]
          have kept : s b' (c :: r.applyFrom (some c) 0 cs) = none := by
            obtain rfl | hgo := hb
            · rw [← applyFrom_copy hrc, h.same hrc, hsc]
            · exact h.letter _ (isLower_eq_false_of_not_isWord hgo)
          have := ih _ (shorter (a := [c]) rfl (by simp)) (b := some c) (.inl rfl) rfl
          rw [applyFrom_copy both, applyFrom_copy hrc, applyFrom_copy kept, this]

theorem Rule.Precedes.apply_orElse {r s : Rule} (h : r.Precedes s) (hr : r.IsTidy)
    (text : List Char) : (r.orElse s).apply text = s.apply (r.apply text) :=
  h.applyFrom_orElse hr (.inl rfl)

/-- The first rule of a list that takes something. -/
def firstOf : List Rule → Rule
  | [] => fun _ _ => none
  | r :: rs => r.orElse (firstOf rs)

theorem exists_of_firstOf {rules : List Rule} {b : Option Char} {text : List Char} {hit : Hit}
    (h : firstOf rules b text = some hit) : ∃ r ∈ rules, r b text = some hit := by
  induction rules with
  | nil => cases h
  | cons r rules ih =>
    obtain h | ⟨-, h⟩ := Option.or_eq_some_iff.1 h
    · exact ⟨r, List.mem_cons_self, h⟩
    · obtain ⟨s, hs, h⟩ := ih h
      exact ⟨s, List.mem_cons_of_mem _ hs, h⟩

theorem firstOf_eq_none {rules : List Rule} {b : Option Char} {text : List Char}
    (h : ∀ r ∈ rules, r b text = none) : firstOf rules b text = none := by
  refine Option.eq_none_iff_forall_ne_some.2 fun hit h_hit => ?_
  obtain ⟨r, hr, hit_eq⟩ := exists_of_firstOf h_hit
  rw [h r hr] at hit_eq
  cases hit_eq

theorem firstOf_congr {rules : List Rule} {b b' : Option Char} {text text' : List Char}
    (h : ∀ r ∈ rules, r b text = r b' text') : firstOf rules b text = firstOf rules b' text' := by
  induction rules with
  | nil => rfl
  | cons r rules ih =>
    rw [firstOf, Rule.orElse, Rule.orElse, h r List.mem_cons_self,
      ih fun s hs => h s (List.mem_cons_of_mem _ hs)]

/-- If all rules that take something take the same, the first one of them does. -/
theorem firstOf_eq_some {rules : List Rule} {r : Rule} {b : Option Char} {text : List Char}
    {hit : Hit} (hr : r ∈ rules) (h : r b text = some hit)
    (only : ∀ s ∈ rules, ∀ other, s b text = some other → other = hit) :
    firstOf rules b text = some hit := by
  induction rules with
  | nil => cases hr
  | cons s rules ih =>
    cases hs : s b text with
    | some other =>
      rw [firstOf, Rule.orElse, hs, Option.some_or, only s List.mem_cons_self other hs]
    | none =>
      have hr : r ∈ rules := (List.mem_cons.1 hr).resolve_left (by
        rintro rfl
        rw [hs] at h
        cases h)
      rw [firstOf, Rule.orElse, hs, Option.none_or]
      exact ih hr fun t ht => only t (List.mem_cons_of_mem s ht)

theorem firstOf_append (rules more : List Rule) :
    firstOf (rules ++ more) = (firstOf rules).orElse (firstOf more) := by
  induction rules with
  | nil => exact funext fun _ => funext fun _ => Option.none_or.symm
  | cons r rules ih =>
    exact funext fun _ => funext fun _ => by
      rw [List.cons_append, firstOf, ih, firstOf, Rule.orElse, Rule.orElse, Rule.orElse, Rule.orElse,
        Option.or_assoc]

theorem firstOf_singleton (r : Rule) : firstOf [r] = r :=
  funext fun _ => funext fun _ => Option.or_none

theorem isTidy_firstOf {rules : List Rule} (h : ∀ r ∈ rules, r.IsTidy) : (firstOf rules).IsTidy := by
  constructor <;> intros <;> obtain ⟨r, hr, hit⟩ := exists_of_firstOf ‹_›
  · exact (h r hr).cut hit
  · exact (h r hr).start hit
  · exact (h r hr).no_letter hit _ ‹_›
  · exact (h r hr).not_blank hit

theorem Rule.IsTidy.orElse {r s : Rule} (hr : r.IsTidy) (hs : s.IsTidy) : (r.orElse s).IsTidy := by
  have tidy : (firstOf [r, s]).IsTidy := isTidy_firstOf (by simp [hr, hs])
  rwa [firstOf, firstOf_singleton] at tidy

theorem Rule.precedes_firstOf {r : Rule} {rules : List Rule} (h : ∀ s ∈ rules, r.Precedes s) :
    r.Precedes (firstOf rules) := by
  induction rules with
  | nil => exact ⟨fun _ _ => rfl, fun _ => rfl, fun _ h => by cases h⟩
  | cons s rules ih =>
    have hs := h s List.mem_cons_self
    have ih := ih fun t ht => h t (List.mem_cons_of_mem _ ht)
    refine ⟨fun cs hc => ?_, fun hr => ?_, fun hr hit => ?_⟩
    · rw [firstOf, Rule.orElse, hs.letter cs hc, ih.letter cs hc, Option.none_or]
    · rw [firstOf, Rule.orElse, Rule.orElse, hs.same hr, ih.same hr]
    · obtain hit | ⟨-, hit⟩ := Option.or_eq_some_iff.1 hit
      · exact hs.keep hr hit
      · exact ih.keep hr hit

/-- **Passes one after the other are one pass.** -/
theorem foldl_apply_eq_firstOf {rules : List Rule}
    (h : rules.Pairwise fun r s => r.IsTidy ∧ r.Precedes s) (text : List Char) :
    rules.foldl (fun t r => r.apply t) text = (firstOf rules).apply text := by
  induction rules generalizing text with
  | nil => exact (Rule.apply_eq_self (fun _ _ => rfl) text).symm
  | cons r rules ih =>
    obtain ⟨hr, hrules⟩ := List.pairwise_cons.1 h
    rw [List.foldl_cons, ih hrules]
    cases rules with
    | nil =>
      rw [firstOf_singleton]
      exact Rule.apply_eq_self (fun _ _ => rfl) _
    | cons s rules =>
      have precedes := Rule.precedes_firstOf fun t ht => (hr t ht).2
      exact (precedes.apply_orElse (hr s List.mem_cons_self).1 text).symm

end Reckoner.Text
