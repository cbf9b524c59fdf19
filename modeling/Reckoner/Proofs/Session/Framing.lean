import Reckoner.Proofs.Answer.Sentences
import Reckoner.Proofs.Session.Lines

/-!
# What is written for one question

A question that has no answer is reported by one line apart from the output, and one that has an
answer by lines of the output alone: one with JSON or without the steps, and else one for each step
(`report_framed`). No break of the question comes through to what is written, so these are all the
lines there are (`hasLines_join`). The settings choose between the three forms of an answer; what the
answer is, or the message in its place, depends on the mode alone.
-/

namespace Reckoner

open Text Unicode

/-! ## Lines of a text -/

/-- A text of these lines: they are what is read of it, and nothing but their ends is a break. -/
structure HasLines (text : String) (lines : List String) : Prop where
  read : Session.inputLines text.toList = lines.map String.toList
  breaks : text.toList.countP isBreaking = lines.length

/-- Each line is its own, and a line feed ends it. -/
theorem hasLines_join {lines : List String} (h : ∀ line ∈ lines, Unbroken line) :
    HasLines (String.join (lines.map (· ++ "\n"))) lines := by
  induction lines with
  | nil => exact ⟨rfl, rfl⟩
  | cons line lines ih =>
    obtain ⟨hline, hlines⟩ := List.forall_mem_cons.1 h
    obtain ⟨read, breaks⟩ := ih hlines
    have text : (String.join ((line :: lines).map (· ++ "\n"))).toList =
        line.toList ++ '\n' :: (String.join (lines.map (· ++ "\n"))).toList := by
      rw [List.map_cons, String.join_cons, String.toList_append, String.toList_append,
        List.append_assoc]
      rfl
    have unbroken (c : Char) (hc : isBreaking c = true) : c ∉ line.toList := fun mem => by
      cases hc.symm.trans (hline c mem)
    constructor
    · have no_return : line.toList.getLast? ≠ some '\r' := fun last =>
        unbroken '\r' (by decide) (List.mem_of_getLast? last)
      rw [text, Session.inputLines_line (unbroken '\n' (by decide)) no_return, read, List.map_cons]
    · have none_inside : line.toList.countP isBreaking = 0 :=
        List.countP_eq_zero.2 fun c hc hbreak => unbroken c hbreak hc
      rw [text, List.countP_append, none_inside, List.countP_cons_of_pos (by decide), breaks,
        List.length_cons, Nat.zero_add]

namespace Session

/-! ## Reports -/

theorem unbroken_writeAnswer {a : Answer} (h : a.IsUnbroken) : Unbroken (writeAnswer a) := by
  refine Json.unbroken_writeObject ?_
  have mode : Unbroken a.mode.name := by
    cases a.mode <;> decide
  simp only [List.forall_mem_cons, List.not_mem_nil, false_imp_iff, implies_true, and_true]
  exact ⟨⟨by decide, Json.unbroken_writeString mode⟩, ⟨by decide, Json.unbroken_writeStrings h.steps⟩,
    by decide, Json.unbroken_writeString h.result⟩

/-- What is written for a question with a fault or an answer. -/
def Framed (s : Settings) (text : List Char) (r : Report) : Except Fault Answer → Prop
  | .error fault => r.code = 1 ∧ r.output = "" ∧ HasLines r.errors ["erreur: " ++ fault.message]
  | .ok a =>
    r.code = 0 ∧ r.errors = "" ∧ Narrated text a ∧
      (s.json = true → HasLines r.output [writeAnswer a]) ∧
      (s.json = false → s.steps = false → HasLines r.output [a.result]) ∧
      (s.json = false → s.steps = true → HasLines r.output a.steps)

/-- A question is answered in some mode, or none fits it. -/
theorem answer_cases (s : Settings) (text : List Char) :
    (∃ mode, s.answer text = answerIn mode text) ∨ s.answer text = .error .unrecognised := by
  rw [Settings.answer]
  split
  · exact .inl ⟨_, rfl⟩
  · rw [answer]
    split
    · exact .inl ⟨_, rfl⟩
    · exact .inr rfl

theorem framed_of_error {s : Settings} {text : List Char} {f : Fault} (h : Unbroken f.message) :
    Framed s text ⟨[], [f.message]⟩ (.error f) := by
  have line : Unbroken ("erreur: " ++ f.message) := Unbroken.append (by decide) h
  exact ⟨rfl, rfl, hasLines_join (List.forall_mem_singleton.2 line)⟩

theorem framed_of_ok {s : Settings} {text : List Char} {a : Answer} (narrated : Narrated text a)
    (h : a.IsUnbroken) : Framed s text ⟨showAnswer s a, []⟩ (.ok a) := by
  refine ⟨rfl, rfl, narrated, fun json => ?_, fun json steps => ?_, fun json steps => ?_⟩
  · rw [Report.output, showAnswer, if_pos json]
    exact hasLines_join (List.forall_mem_singleton.2 (unbroken_writeAnswer h))
  · rw [Report.output, showAnswer, if_neg (by simp [json]), if_neg (by simp [steps])]
    exact hasLines_join (List.forall_mem_singleton.2 h.result)
  · rw [Report.output, showAnswer, if_neg (by simp [json]), if_pos steps]
    exact hasLines_join h.steps

theorem framed_reportLine (s : Settings) {text : List Char} (nonblank : text.all isBlank = false) :
    Framed s text (reportLine s text) (s.answer text) := by
  rw [reportLine, nonblank]
  obtain ⟨mode, answered⟩ | unrecognised := answer_cases s text
  · cases h : s.answer text with
    | error f => exact framed_of_error (unbroken_message (answered.symm.trans h))
    | ok a =>
      obtain ⟨narrated, unbroken⟩ := narrated_of_answerIn (answered.symm.trans h)
      exact framed_of_ok narrated unbroken
  · rw [unrecognised]
    exact framed_of_error (by decide)

/-! ## Runs with one question -/

/-- A run with these settings and this one question: the words of the arguments make it, or it is the
only line of the input. -/
inductive Asks (host : Host Id) (arguments : List String) (s : Settings) (text : List Char) : Prop
  | words {words : List String} (opens : Opens host arguments s words) (ne_nil : words ≠ [])
    (text_eq : (" ".intercalate words).toList = text)
  | input (opens : Opens host arguments s []) (lines : inputLines host.input.toList = [text])

theorem Asks.run_eq {host : Host Id} {arguments : List String} {s : Settings} {text : List Char}
    (h : Asks host arguments s text) : run host arguments = .ok (report s [text]) := by
  cases h with
  | words opens ne_nil text_eq => rw [opens.run_words ne_nil, text_eq]
  | input opens lines =>
    rw [opens.run_eq, ← lines]
    rfl

/-- **What is written for a question**, whatever stands in it. A fault writes one line apart from the
output, and an answer writes lines of the output alone: one with JSON or without the steps, and else
as many as there are steps. What is answered depends on the mode and on no other setting. -/
theorem report_framed (s : Settings) {text : List Char} (nonblank : text.all isBlank = false) :
    Framed s text (report s [text]) (s.answer text) ∧
      (∀ s' : Settings, s'.mode = s.mode → s'.answer text = s.answer text) ∧
      ∀ host arguments, Asks host arguments s text →
        run host arguments = .ok (report s [text]) := by
  refine ⟨?_, fun s' same => ?_, fun _ _ asks => asks.run_eq⟩
  · rw [report_singleton]
    exact framed_reportLine s nonblank
  · rw [Settings.answer, Settings.answer, same]

/-- A question on the command line with breaks in it has an answer in three lines, and one that
divides by zero has none, which one line says. -/
theorem report_framed_breaks :
    ("2\r+\n2".toList.all isBlank = false ∧
      run bareHost ["2\r+\n2"] = .ok (report {} ["2\r+\n2".toList]) ∧
      HasLines (report {} ["2\r+\n2".toList]).output
        ["Expression : 2 + 2", "Jetons : 2 + 2", "Résultat : 4"]) ∧
    "1/\u00850".toList.all isBlank = false ∧ (report {} ["1/\u00850".toList]).output = "" ∧
      HasLines (report {} ["1/\u00850".toList]).errors ["erreur: division par zéro"] := by
  have solid : "2\r+\n2".toList.all isBlank = false := by decide
  have solid' : "1/\u00850".toList.all isBlank = false := by decide
  have answered : ({} : Settings).answer "2\r+\n2".toList = .ok {
      mode := .arithmetic
      steps := ["Expression : 2 + 2", "Jetons : 2 + 2", "Résultat : 4"]
      result := "4" } := by
    with_unfolding_all rfl
  have refused : ({} : Settings).answer "1/\u00850".toList = .error .divisionByZero := by
    with_unfolding_all rfl
  have opens : Opens bareHost ["2\r+\n2"] {} ["2\r+\n2"] :=
    @Opens.intro _ _ _ _ { words := ["2\r+\n2"] } { words := ["2\r+\n2"] } {} rfl rfl rfl rfl rfl
  obtain ⟨framed, -, runs⟩ := report_framed {} solid
  obtain ⟨framed', -, -⟩ := report_framed {} solid'
  rw [answered] at framed
  rw [refused] at framed'
  obtain ⟨-, -, -, -, -, steps⟩ := framed
  obtain ⟨-, output, errors⟩ := framed'
  exact ⟨⟨solid, runs _ _ (.words opens (by simp) rfl), steps rfl rfl⟩, solid', output, errors⟩

end Session

end Reckoner
