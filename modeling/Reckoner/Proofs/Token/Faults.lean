import Reckoner.Proofs.Decimal.Grammar
import Reckoner.Proofs.Token.Reading

/-!
# Faults of expressions

What is wrong with the text of an expression is said of its places alone, without tokens: a
character that no expression has, a run of digits and points that is no decimal, a minus in the
place of an operand with nothing behind it that it could be the sign of (`FaultHere`). Reading
succeeds exactly if no place has a fault, and otherwise ends with the fault of the leftmost place
that has one (`read_leftmost_fault`).
-/

namespace Reckoner.Token

open Text Unicode

/-- Whether expressions have the character. -/
def isTokenChar (c : Char) : Bool := Decimal.isLiteralChar c || "+-*/%()".toList.contains c

/-- Whether an operand has to follow: at the start, behind an operator and behind an opening
parenthesis. -/
def OpensOperand (before : Option Char) : Prop := ∀ c ∈ before, c ∈ "+-*/(".toList

/-- Whether a text starts with something that a minus can be the sign of. -/
def StartsOperand (text : List Char) : Prop :=
  ∃ c ∈ text.head?, Decimal.isLiteralChar c = true ∨ c = '('

/-- A run with at least one digit and at most one point. -/
def IsNumber (run : List Char) : Prop := (∃ c ∈ run, c.isDigit = true) ∧ run.count '.' ≤ 1

/-- The fault of the first place of a text that stands behind `before`. A run of digits and points
counts at its first character, and only as a whole. -/
inductive FaultHere (before : Option Char) : List Char → Fault → Prop
  | unexpected {c : Char} {rest : List Char} (h : isTokenChar c = false) :
    FaultHere before (c :: rest) (.malformed (.unexpected c))
  | literal {run rest : List Char} (ne_nil : run ≠ [])
    (chars : run.all Decimal.isLiteralChar = true)
    (first : before.any Decimal.isLiteralChar = false)
    (last : rest.head?.any Decimal.isLiteralChar = false) (bad : ¬IsNumber run) :
    FaultHere before (run ++ rest) (.literal run)
  | bareSign {rest : List Char} (sign : OpensOperand before) (bare : ¬StartsOperand rest) :
    FaultHere before ('-' :: rest) (.malformed .bareSign)

/-- The fault of place `i` of a text that stands behind `before`. -/
def FaultFrom (before : Option Char) (text : List Char) (i : ℕ) (f : Fault) : Prop :=
  FaultHere ((text.take i).getLast?.or before) (text.drop i) f

/-- The fault of place `i` of a text. -/
def FaultAt (text : List Char) (i : ℕ) (f : Fault) : Prop :=
  FaultHere (text.take i).getLast? (text.drop i) f

/-- Whether the outcome of reading a text that stands behind `before` agrees with its faults. -/
def Judges (before : Option Char) (text : List Char) : Except Fault (List Token) → Prop
  | .ok _ => ∀ i f, ¬FaultFrom before text i f
  | .error f => ∃ i, FaultFrom before text i f ∧ ∀ j g, FaultFrom before text j g → i ≤ j

/-! ## Single places -/

theorem not_faultHere_nil (before : Option Char) (f : Fault) : ¬FaultHere before [] f := by
  intro h
  generalize htext : ([] : List Char) = text at h
  cases h with
  | unexpected => cases htext
  | literal ne_nil => exact ne_nil (List.append_eq_nil_iff.1 htext.symm).1
  | bareSign => cases htext

/-- A fault of a character of literals is that of the run that starts there. -/
theorem FaultHere.of_isLiteralChar {before : Option Char} {c : Char} {rest : List Char} {f : Fault}
    (h : FaultHere before (c :: rest) f) (hc : Decimal.isLiteralChar c = true) :
    f = .literal ((c :: rest).takeWhile Decimal.isLiteralChar) ∧
      before.any Decimal.isLiteralChar = false ∧
      ¬IsNumber ((c :: rest).takeWhile Decimal.isLiteralChar) := by
  generalize htext : c :: rest = text at h
  cases h with
  | unexpected h =>
    cases htext
    simp [isTokenChar, hc] at h
  | literal ne_nil chars first last bad =>
    rw [takeWhile_run chars last]
    exact ⟨rfl, first, bad⟩
  | bareSign =>
    cases htext
    cases hc

/-- A fault of a sign is a minus in the place of an operand. -/
theorem FaultHere.of_ofSymbol? {before : Option Char} {c : Char} {rest : List Char} {f : Fault}
    {t : Token} (h : FaultHere before (c :: rest) f) (hc : ofSymbol? c = some t) :
    f = .malformed .bareSign ∧ c = '-' ∧ OpensOperand before ∧ ¬StartsOperand rest := by
  have plain : isTokenChar c = true ∧ Decimal.isLiteralChar c = false := by
    unfold ofSymbol? at hc
    split at hc <;> first | exact ⟨rfl, rfl⟩ | cases hc
  generalize htext : c :: rest = text at h
  cases h with
  | unexpected h =>
    cases htext
    rw [plain.1] at h
    cases h
  | @literal run _ ne_nil chars =>
    cases run with
    | nil => exact absurd rfl ne_nil
    | cons d run =>
      cases htext
      have := List.all_eq_true.1 chars c List.mem_cons_self
      rw [plain.2] at this
      cases this
  | bareSign sign bare =>
    cases htext
    exact ⟨rfl, rfl, sign, bare⟩

theorem isTokenChar_eq_false {c : Char} (hc : Decimal.isLiteralChar c = false)
    (h : ofSymbol? c = none) : isTokenChar c = false := by
  have signs : ("+-*/%()".toList.all fun c => (ofSymbol? c).isSome) = true := by decide
  rw [isTokenChar, hc, Bool.false_or, List.contains_eq_mem, decide_eq_false_iff_not]
  intro hmem
  have := List.all_eq_true.1 signs c hmem
  rw [h] at this
  cases this

/-- A fault of any other character says so. -/
theorem FaultHere.of_isTokenChar {before : Option Char} {c : Char} {rest : List Char} {f : Fault}
    (h : FaultHere before (c :: rest) f) (hc : isTokenChar c = false) :
    f = .malformed (.unexpected c) := by
  generalize htext : c :: rest = text at h
  cases h with
  | unexpected =>
    cases htext
    rfl
  | @literal run _ ne_nil chars =>
    cases run with
    | nil => exact absurd rfl ne_nil
    | cons d run =>
      cases htext
      rw [isTokenChar, List.all_eq_true.1 chars c List.mem_cons_self] at hc
      cases hc
  | bareSign =>
    cases htext
    cases hc

/-- A place has one fault at most. -/
theorem FaultHere.unique {before : Option Char} {text : List Char} {f g : Fault}
    (hf : FaultHere before text f) (hg : FaultHere before text g) : f = g := by
  cases text with
  | nil => exact absurd hf (not_faultHere_nil before f)
  | cons c rest =>
    by_cases hlit : Decimal.isLiteralChar c = true
    · exact (hf.of_isLiteralChar hlit).1.trans (hg.of_isLiteralChar hlit).1.symm
    · cases hsymbol : ofSymbol? c with
      | some t => exact (hf.of_ofSymbol? hsymbol).1.trans (hg.of_ofSymbol? hsymbol).1.symm
      | none =>
        have hc := isTokenChar_eq_false (Bool.eq_false_iff.2 hlit) hsymbol
        exact (hf.of_isTokenChar hc).trans (hg.of_isTokenChar hc).symm

/-! ## Texts in parts -/

theorem faultFrom_append {before : Option Char} {text rest : List Char} {i : ℕ} {f : Fault} :
    FaultFrom before (text ++ rest) (text.length + i) f ↔
      FaultFrom (text.getLast?.or before) rest i f := by
  rw [FaultFrom, FaultFrom, List.take_length_add_append, List.drop_length_add_append,
    List.getLast?_append, Option.or_assoc]

/-- A part without faults in front of a text. -/
theorem Judges.append {before : Option Char} {text rest : List Char}
    {r : Except Fault (List Token)} (h : Judges (text.getLast?.or before) rest r)
    (clean : ∀ i < text.length, ∀ f, ¬FaultFrom before (text ++ rest) i f)
    (ts : List Token → List Token) :
    Judges before (text ++ rest) (r >>= fun us => .ok (ts us)) := by
  have behind {j : ℕ} {g : Fault} (hg : FaultFrom before (text ++ rest) j g) :
      ∃ k, j = text.length + k ∧ FaultFrom (text.getLast?.or before) rest k g := by
    obtain hj | hj := Nat.lt_or_ge j text.length
    · exact absurd hg (clean j hj g)
    · obtain ⟨k, rfl⟩ := Nat.exists_eq_add_of_le hj
      exact ⟨k, rfl, faultFrom_append.1 hg⟩
  cases r with
  | ok us =>
    intro j g hg
    obtain ⟨k, -, hk⟩ := behind hg
    exact h k g hk
  | error f =>
    obtain ⟨i, hi, least⟩ := h
    refine ⟨text.length + i, faultFrom_append.2 hi, fun j g hg => ?_⟩
    obtain ⟨k, rfl, hk⟩ := behind hg
    exact Nat.add_le_add_left (least k g hk) _

theorem FaultHere.judges {before : Option Char} {text : List Char} {f : Fault}
    (h : FaultHere before text f) : Judges before text (.error f) :=
  ⟨0, h, fun _ _ _ => Nat.zero_le _⟩

/-- A character without a fault in front of a text. -/
theorem Judges.cons {before : Option Char} {c : Char} {rest : List Char}
    {r : Except Fault (List Token)} (h : Judges (some c) rest r)
    (clean : ∀ f, ¬FaultHere before (c :: rest) f) (ts : List Token → List Token) :
    Judges before (c :: rest) (r >>= fun us => .ok (ts us)) := by
  refine @Judges.append before [c] rest r h (fun i hi f => ?_) ts
  obtain rfl : i = 0 := by simpa using hi
  exact clean f

/-- No place of a number has a fault. -/
theorem IsNumber.clean {before : Option Char} {run rest : List Char} (h : IsNumber run)
    (chars : run.all Decimal.isLiteralChar = true)
    (last : rest.head?.any Decimal.isLiteralChar = false) {i : ℕ} (hi : i < run.length)
    (f : Fault) : ¬FaultFrom before (run ++ rest) i f := by
  intro hf
  obtain ⟨pre, c, post, rfl, rfl⟩ : ∃ pre c post, run = pre ++ c :: post ∧ pre.length = i :=
    ⟨run.take i, run[i], run.drop (i + 1), by simp, by simp; omega⟩
  have hc : Decimal.isLiteralChar c = true :=
    List.all_eq_true.1 chars c (by simp)
  rw [FaultFrom, List.append_assoc, List.take_left, List.drop_left, List.cons_append] at hf
  obtain ⟨-, first, bad⟩ := hf.of_isLiteralChar hc
  -- behind a character of the run no run starts, and the run itself is a number
  cases hpre : pre.getLast? with
  | none =>
    rw [List.getLast?_eq_none_iff.1 hpre, List.nil_append] at chars h
    exact bad (List.cons_append ▸ (takeWhile_run chars last).symm ▸ h)
  | some d =>
    rw [hpre, Option.some_or] at first
    have := List.all_eq_true.1 chars d (List.mem_append_left _ (List.mem_of_getLast? hpre))
    simp [this] at first

theorem readLiteral_of_isNumber {run : List Char} (h : IsNumber run)
    (chars : run.all Decimal.isLiteralChar = true) : ∃ x, readLiteral run = .ok x := by
  obtain ⟨d, hd⟩ := (Decimal.exists_isDecimal_iff chars).2 h
  exact ⟨d.value 0, by rw [readLiteral, Decimal.read?_eq_some_iff.2 ⟨d, hd, rfl⟩]⟩

theorem readLiteral_of_not_isNumber {run : List Char} (h : ¬IsNumber run)
    (chars : run.all Decimal.isLiteralChar = true) : readLiteral run = .error (.literal run) := by
  unfold readLiteral
  split
  · rename_i x hx
    obtain ⟨d, hd, -⟩ := Decimal.read?_eq_some_iff.1 hx
    exact absurd ((Decimal.exists_isDecimal_iff chars).1 ⟨d, hd⟩) h
  · rfl

/-- A run in front of a text. -/
theorem Judges.run {before : Option Char} {run rest : List Char} {r : Except Fault (List Token)}
    (h : Judges run.getLast? rest r) (ne_nil : run ≠ [])
    (chars : run.all Decimal.isLiteralChar = true)
    (first : before.any Decimal.isLiteralChar = false)
    (last : rest.head?.any Decimal.isLiteralChar = false)
    (ts : Float → List Token → List Token) :
    Judges before (run ++ rest)
      (readLiteral run >>= fun x => r >>= fun us => .ok (ts x us)) := by
  by_cases good : IsNumber run
  · obtain ⟨x, hx⟩ := readLiteral_of_isNumber good chars
    rw [hx, ok_bind]
    have hlast : run.getLast?.or before = run.getLast? := by
      rw [List.getLast?_eq_some_getLast ne_nil, Option.some_or]
    rw [← hlast] at h
    exact h.append (fun _ hi => good.clean chars last hi) (ts x)
  · rw [readLiteral_of_not_isNumber good chars]
    exact (FaultHere.literal ne_nil chars first last good).judges

/-! ## The whole text -/

theorem not_opensOperand {c : Char} (hc : Decimal.isLiteralChar c = true) :
    ¬OpensOperand (some c) := by
  intro h
  have signs : ("+-*/(".toList.all fun c => !Decimal.isLiteralChar c) = true := by decide
  have := List.all_eq_true.1 signs c (h c rfl)
  rw [hc] at this
  cases this

theorem not_opensOperand_getLast? {run : List Char} (ne_nil : run ≠ [])
    (chars : run.all Decimal.isLiteralChar = true) : ¬OpensOperand run.getLast? := by
  rw [List.getLast?_eq_some_getLast ne_nil]
  exact not_opensOperand (List.all_eq_true.1 chars _ (List.getLast_mem ne_nil))

theorem expectsOperand_iff {c : Char} {t : Token} (h : ofSymbol? c = some t) :
    t.expectsOperand = true ↔ OpensOperand (some c) := by
  have opens : OpensOperand (some c) ↔ c ∈ "+-*/(".toList := by simp [OpensOperand]
  rw [opens]
  unfold ofSymbol? at h
  split at h <;> cases h <;> decide

theorem first_of_cut {before : Option Char} {run rest : List Char}
    (cut : before.any Decimal.isLiteralChar = true →
      (run ++ rest).head?.any Decimal.isLiteralChar = false) (ne_nil : run ≠ [])
    (chars : run.all Decimal.isLiteralChar = true) :
    before.any Decimal.isLiteralChar = false := by
  cases run with
  | nil => exact absurd rfl ne_nil
  | cons c run =>
    have hc := List.all_eq_true.1 chars c List.mem_cons_self
    refine Bool.eq_false_iff.2 fun h => ?_
    have : Decimal.isLiteralChar c = false := cut h
    rw [hc] at this
    cases this

/-- **Reading judges a text by its places.** The induction is on the pieces; what stands before them
says whether an operand is expected, and no run goes on from it. -/
theorem judges_ofPieces {before : Option Char} {text : List Char} {b : Bool}
    (hb : b = true ↔ OpensOperand before)
    (cut : before.any Decimal.isLiteralChar = true →
      text.head?.any Decimal.isLiteralChar = false) :
    Judges before text (ofPieces b (pieces Decimal.isLiteralChar text)) := by
  generalize hps : pieces Decimal.isLiteralChar text = ps
  fun_induction ofPieces b ps generalizing before text with
  | case1 b =>
    have htext := flatMap_text_pieces Decimal.isLiteralChar text
    rw [hps] at htext
    obtain rfl : text = [] := htext.symm
    intro i f
    rw [FaultFrom, List.drop_nil]
    exact not_faultHere_nil _ f
  | case2 b t rest ih =>
    -- a run
    obtain ⟨ds, rfl, ne_nil, chars, last, rfl⟩ := eq_append_of_pieces_eq_run hps
    have behind := ih (by simpa using not_opensOperand_getLast? ne_nil chars) (fun _ => last) rfl
    exact behind.run ne_nil chars (first_of_cut cut ne_nil chars) last fun x us => .number x :: us
  | case3 rest ih =>
    -- a minus before a parenthesis
    obtain ⟨ds, rfl, -, hds⟩ := eq_cons_of_pieces_eq_single hps
    obtain ⟨es, rfl, -, rfl⟩ := eq_cons_of_pieces_eq_single hds.symm
    have behind : Judges (some '(') es (ofPieces true (pieces Decimal.isLiteralChar es)) :=
      ih (by simp [OpensOperand]) (fun h => by cases h) rfl
    refine @Judges.append before ['-', '('] es _ behind (fun i hi f hf => ?_)
      fun us => .number 0 :: .operator .minus :: .opening :: us
    obtain rfl | rfl : i = 0 ∨ i = 1 := by
      simp only [List.length_cons, List.length_nil] at hi
      omega
    · exact (hf.of_ofSymbol? (t := .operator .minus) rfl).2.2.2 ⟨'(', rfl, .inr rfl⟩
    · cases (hf.of_ofSymbol? (t := .opening) rfl).2.1
  | case4 t rest ih =>
    -- a minus before a run, which is its sign
    obtain ⟨ds, rfl, -, hds⟩ := eq_cons_of_pieces_eq_single hps
    obtain ⟨es, rfl, ne_nil, chars, last, rfl⟩ := eq_append_of_pieces_eq_run hds.symm
    have behind := ih (by simpa using not_opensOperand_getLast? ne_nil chars) (fun _ => last) rfl
    have run : Judges (some '-') (t ++ es) _ :=
      behind.run ne_nil chars rfl last fun x us => .number (-x) :: us
    have clean (f : Fault) : ¬FaultHere before ('-' :: (t ++ es)) f := fun hf => by
      refine (hf.of_ofSymbol? (t := .operator .minus) rfl).2.2.2 ?_
      cases t with
      | nil => exact absurd rfl ne_nil
      | cons d t => exact ⟨d, rfl, .inl (List.all_eq_true.1 chars d List.mem_cons_self)⟩
    have unit (r : Except Fault (List Token)) : (r >>= fun us => .ok (id us)) = r := bind_pure r
    have := run.cons clean id
    rwa [unit] at this
  | case5 rest h₁ h₂ =>
    -- a minus before neither
    obtain ⟨ds, rfl, -, rfl⟩ := eq_cons_of_pieces_eq_single hps
    refine (FaultHere.bareSign (hb.1 rfl) ?_).judges
    rintro ⟨c, hc, hstart⟩
    obtain ⟨es, rfl⟩ := List.head?_eq_some_iff.1 hc
    obtain hlit | rfl := hstart
    · exact h₂ _ _ (pieces_cons_run hlit es)
    · exact h₁ _ (pieces_cons_single rfl es)
  | case6 b c rest h₁ h₂ h₃ t ht ih =>
    -- any other sign
    obtain ⟨ds, rfl, hc, rfl⟩ := eq_cons_of_pieces_eq_single hps
    have behind : Judges (some c) ds _ :=
      ih (expectsOperand_iff ht) (fun h => absurd (hc.symm.trans h) (by decide)) rfl
    refine behind.cons (fun f hf => ?_) fun us => t :: us
    obtain ⟨-, hminus, sign, -⟩ := hf.of_ofSymbol? ht
    exact h₃ (hb.2 sign) hminus
  | case7 b c rest h₁ h₂ h₃ ht =>
    -- a character that no expression has
    obtain ⟨ds, rfl, hc, rfl⟩ := eq_cons_of_pieces_eq_single hps
    exact (FaultHere.unexpected (isTokenChar_eq_false hc ht)).judges

/-- An outcome that agrees with the faults is a success if there is none. -/
theorem Judges.exists_ok_iff {before : Option Char} {text : List Char}
    {r : Except Fault (List Token)} (h : Judges before text r) :
    (∃ ts, r = .ok ts) ↔ ∀ i f, ¬FaultFrom before text i f := by
  cases r with
  | ok ts => exact ⟨fun _ => h, fun _ => ⟨ts, rfl⟩⟩
  | error f =>
    obtain ⟨i, hi, -⟩ := h
    constructor
    · rintro ⟨_, hok⟩
      cases hok
    · exact fun clean => absurd hi (clean i f)

/-- An outcome that agrees with the faults is otherwise that of the leftmost one. -/
theorem Judges.eq_error_iff {before : Option Char} {text : List Char}
    {r : Except Fault (List Token)} (h : Judges before text r) {f : Fault} :
    r = .error f ↔
      ∃ i, FaultFrom before text i f ∧ ∀ j g, FaultFrom before text j g → i ≤ j := by
  constructor
  · rintro rfl
    exact h
  · rintro ⟨j, hj, least'⟩
    cases r with
    | ok => exact absurd hj (h j f)
    | error g =>
      obtain ⟨i, hi, least⟩ := h
      obtain rfl : i = j := Nat.le_antisymm (least j f hj) (least' i g hi)
      exact congrArg _ (FaultHere.unique hi hj)

theorem faultFrom_none {text : List Char} {i : ℕ} {f : Fault} :
    FaultFrom none text i f ↔ FaultAt text i f := by
  rw [FaultFrom, FaultAt, Option.or_none]

theorem message_bareSign :
    (Fault.malformed .bareSign).message = "expression invalide : moins unaire sans chiffres" := by
  decide +kernel

/-- **The leftmost fault.** A text is read if something is left of it without its blanks and no
place of this has a fault; otherwise reading ends with the fault of the leftmost place. -/
theorem read_leftmost_fault (text : List Char) :
    ((∃ ts, read text = .ok ts) ↔ text.filter (!isBlank ·) ≠ [] ∧
      ∀ i f, ¬FaultAt (text.filter (!isBlank ·)) i f) ∧
    (∀ f, read text = .error f ↔ text.filter (!isBlank ·) = [] ∧ f = .empty ∨
      ∃ i, FaultAt (text.filter (!isBlank ·)) i f ∧
        ∀ j g, FaultAt (text.filter (!isBlank ·)) j g → i ≤ j) ∧
    (Fault.malformed .bareSign).message = "expression invalide : moins unaire sans chiffres" := by
  have nowhere (i : ℕ) (f : Fault) : ¬FaultAt [] i f := by
    rw [FaultAt, List.drop_nil]
    exact not_faultHere_nil _ f
  generalize hcs : text.filter (!isBlank ·) = cs
  by_cases hne : cs = []
  · subst hne
    have hread : read text = .error .empty := by rw [read, hcs]
    refine ⟨by simp [hread], fun f => ?_, message_bareSign⟩
    simp [hread, nowhere, eq_comm]
  · have judged : Judges none cs (read text) := by
      rw [read_eq_ofPieces hcs hne]
      exact judges_ofPieces (by simp [OpensOperand]) fun h => by cases h
    refine ⟨?_, fun f => ?_, message_bareSign⟩
    · rw [judged.exists_ok_iff, and_iff_right hne]
      simp only [faultFrom_none]
    · rw [judged.eq_error_iff, or_iff_right fun h => hne h.1]
      simp only [faultFrom_none]

end Reckoner.Token
