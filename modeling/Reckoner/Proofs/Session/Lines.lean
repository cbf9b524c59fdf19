import Mathlib.Data.List.Basic
import Reckoner.Session

/-!
# Runs line by line

A run reports on each line of its input as if this line were the only one (`report_joins_lines`), so
its code is one exactly if one of the lines is not blank and has no answer (`code_report_iff`), and
the words of a question on the command line are answered as the line that they make
(`run_lines`). Which settings count, and which words, is said by `Opens`; arguments behind those of
a run are read as if they stood alone (`read?_append`), so all words can be given
(`Opens.append_words`).
-/

namespace Reckoner

open CommandLine Unicode

/-! ## Reports in a row -/

/-- A report that consists of other ones: it says what they say one after the other, and is without
faults if all of them are. -/
structure Report.Joins (r : Report) (parts : List Report) : Prop where
  output_eq : r.output = String.join (parts.map Report.output)
  faults_eq : r.faults = parts.flatMap Report.faults
  code_eq_one_iff : r.code = 1 ↔ ∃ part ∈ parts, part.code = 1
  code_eq_zero_iff : r.code = 0 ↔ ∀ part ∈ parts, part.code = 0

namespace Report

theorem code_eq_zero_iff_faults {r : Report} : r.code = 0 ↔ r.faults = [] := by
  unfold code
  split <;> simp_all

theorem code_eq_one_iff_faults {r : Report} : r.code = 1 ↔ r.faults ≠ [] := by
  unfold code
  split <;> simp_all

theorem output_append (r s : Report) : (r.append s).output = r.output ++ s.output := by
  simp [output, append, String.join_append]

theorem output_foldr (parts : List Report) :
    (parts.foldr append empty).output = String.join (parts.map output) := by
  induction parts with
  | nil => rfl
  | cons r parts ih => rw [List.foldr_cons, output_append, ih, List.map_cons, String.join_cons]

theorem faults_foldr (parts : List Report) :
    (parts.foldr append empty).faults = parts.flatMap faults := by
  induction parts with
  | nil => rfl
  | cons r parts ih =>
    rw [List.flatMap_cons, ← ih]
    rfl

/-- Reports put together one by one. -/
theorem joins_foldr (parts : List Report) : (parts.foldr append empty).Joins parts where
  output_eq := output_foldr parts
  faults_eq := faults_foldr parts
  code_eq_one_iff := by simp [code_eq_one_iff_faults, faults_foldr]
  code_eq_zero_iff := by simp [code_eq_zero_iff_faults, faults_foldr]

end Report

namespace Session

theorem append_empty (r : Report) : r.append Report.empty = r := by
  simp [Report.append, Report.empty]

theorem report_singleton (s : Settings) (line : List Char) : report s [line] = reportLine s line :=
  append_empty _

/-- **Each line is reported on as if it were the only one.** -/
theorem report_joins_lines (s : Settings) (lines : List (List Char)) :
    (report s lines).Joins (lines.map fun line => report s [line]) := by
  have parts : report s lines =
      (lines.map fun line => report s [line]).foldr Report.append .empty := by
    induction lines with
    | nil => rfl
    | cons line lines ih => rw [report, ih, List.map_cons, List.foldr_cons, report_singleton]
  rw [parts]
  exact Report.joins_foldr _

/-- The report on lines and on more lines is both reports. -/
theorem report_joins_append (s : Settings) (lines more : List (List Char)) :
    (report s (lines ++ more)).Joins [report s lines, report s more] := by
  have parts := Report.joins_foldr [report s lines, report s more]
  rwa [List.foldr_cons, List.foldr_cons, List.foldr_nil, append_empty, ← report_append] at parts

theorem report_blank (s : Settings) {line : List Char} (h : line.all isBlank = true) :
    report s [line] = Report.empty := by
  rw [report_singleton, reportLine, if_pos h]

/-- A line fails if it is not blank and has no answer. -/
theorem code_report_singleton (s : Settings) (line : List Char) :
    (report s [line]).code = 1 ↔
      line.all isBlank = false ∧ ∃ fault, s.answer line = .error fault := by
  rw [report_singleton, reportLine, Report.code_eq_one_iff_faults]
  cases line.all isBlank with
  | true => simp [Report.empty]
  | false => cases s.answer line <;> simp

/-- **The code is one exactly if a line fails.** -/
theorem code_report_iff (s : Settings) (lines : List (List Char)) :
    (report s lines).code = 1 ↔
      ∃ line ∈ lines, line.all isBlank = false ∧ ∃ fault, s.answer line = .error fault := by
  rw [(report_joins_lines s lines).code_eq_one_iff]
  simp [code_report_singleton]

/-! ## The lines of an input -/

/-- A line that is ended by a carriage return and a line feed is read as it stands, even if it ends
with a carriage return itself. -/
theorem inputLines_line_return {line : List Char} (h : '\n' ∉ line) (rest : List Char) :
    inputLines (line ++ '\r' :: '\n' :: rest) = line :: inputLines rest := by
  induction line with
  | nil => rfl
  | cons c cs ih =>
    simp only [List.mem_cons, not_or] at h
    have next : (cs ++ '\r' :: '\n' :: rest).head? ≠ some '\n' := by
      cases cs with
      | nil => simp
      | cons d ds =>
        have hd : '\n' ≠ d := fun hd => h.2 (hd ▸ List.mem_cons_self)
        simpa using hd.symm
    rw [List.cons_append, inputLines, ih h.2]
    · exact Ne.symm h.1
    · intro tail _ htail
      exact next (by rw [htail, List.head?_cons])

/-- What follows the last line feed is a line, too. -/
theorem inputLines_unended {line : List Char} (h : '\n' ∉ line) (ne_nil : line ≠ []) :
    inputLines line = [line] := by
  induction line with
  | nil => exact absurd rfl ne_nil
  | cons c cs ih =>
    simp only [List.mem_cons, not_or] at h
    rw [inputLines]
    · by_cases hcs : cs = []
      · simp [hcs, inputLines]
      · rw [ih h.2 hcs]
    · exact Ne.symm h.1
    · rintro tail - rfl
      exact h.2 List.mem_cons_self

/-- All lines are those of some input. -/
theorem exists_inputLines {lines : List (List Char)} (h : ∀ line ∈ lines, '\n' ∉ line) :
    ∃ input : String, inputLines input.toList = lines := by
  refine ⟨String.ofList (lines.flatMap (· ++ ['\r', '\n'])), ?_⟩
  rw [String.toList_ofList]
  induction lines with
  | nil => rfl
  | cons line lines ih =>
    rw [List.flatMap_cons, List.append_assoc]
    exact (inputLines_line_return (h line List.mem_cons_self) _).trans
      (congrArg _ (ih fun l hl => h l (List.mem_cons_of_mem _ hl)))

end Session

/-! ## Arguments -/

namespace CommandLine

theorem eq_dashes_of_ofString {a : String} (h : Argument.ofString a = .endOfOptions) :
    a = "--" := by
  unfold Argument.ofString at h
  split at h
  · rename_i hdashes
    exact String.toList_inj.1 hdashes
  all_goals cases h

/-- **Arguments behind those of a run are read as if they stood alone.** -/
theorem read?_append {o p : Options} {arguments : List String} (dashes : "--" ∉ arguments)
    (h : read? o arguments = some (.run p)) (more : List String) :
    read? o (arguments ++ more) = read? p more := by
  fun_induction read? o arguments with
  | case1 o =>
    cases h
    rfl
  | case2 o a rest word ih =>
    simp only [List.mem_cons, not_or] at dashes
    rw [List.cons_append, read?, word]
    exact ih dashes.2 h
  | case3 o a rest ends =>
    exact absurd (by rw [eq_dashes_of_ofString ends]; exact List.mem_cons_self) dashes
  | case7 o a rest name value long ih =>
    simp only [List.mem_cons, not_or] at dashes
    obtain ⟨setter, hsetter, h⟩ := Option.bind_eq_some_iff.1 h
    obtain ⟨o', ho', h⟩ := Option.bind_eq_some_iff.1 h
    rw [List.cons_append, read?, long]
    simp only [hsetter, ho', Option.bind_eq_bind, Option.bind_some]
    exact ih o' dashes.2 h
  | case9 o a name long setter hsetter value rest hvalue ih =>
    simp only [List.mem_cons, not_or] at dashes
    obtain ⟨o', ho', h⟩ := Option.bind_eq_some_iff.1 h
    rw [List.cons_append, List.cons_append, read?, long]
    simp only [hsetter, hvalue, ho', Option.bind_eq_bind, Option.bind_some, if_true]
    exact ih o' dashes.2.2 h
  | case13 o a rest name long hsetter hversion hhelp ih =>
    simp only [List.mem_cons, not_or] at dashes
    obtain ⟨o', ho', h⟩ := Option.bind_eq_some_iff.1 h
    rw [List.cons_append, read?, long]
    simp only [hsetter, hversion, hhelp, ho', Option.bind_eq_bind, Option.bind_some, if_false]
    exact ih o' dashes.2 h
  | _ => cases h

/-- Options with more words. -/
def Options.withWords (o : Options) (words : List String) : Options :=
  { o with words := o.words ++ words }

@[simp] theorem Options.withWords_logLevel (o : Options) (words : List String) :
    (o.withWords words).logLevel = o.logLevel := rfl

@[simp] theorem Options.withWords_config (o : Options) (words : List String) :
    (o.withWords words).config = o.config := rfl

@[simp] theorem Options.withWords_words (o : Options) (words : List String) :
    (o.withWords words).words = o.words ++ words := rfl

@[simp] theorem Options.override_withWords (o : Options) (words : List String) (s : Settings) :
    (o.withWords words).override s = o.override s := rfl

/-- Two dashes make all arguments behind them words. -/
theorem read?_dashes (o : Options) (words : List String) :
    read? o ("--" :: words) = some (.run (o.withWords words)) := rfl

/-- Arguments that look like no option are words. -/
theorem read?_words {words : List String} (h : ∀ w ∈ words, Argument.ofString w = .word)
    (o : Options) : read? o words = some (.run (o.withWords words)) := by
  induction words generalizing o with
  | nil => simp [read?, Options.withWords]
  | cons w words ih =>
    rw [read?, h w List.mem_cons_self]
    simp [ih fun v hv => h v (List.mem_cons_of_mem _ hv), Options.withWords]

theorem set?_withWords (o : Options) (words : List String) (value : String) (setter : Setter) :
    (o.withWords words).set? value setter = (o.set? value setter).map (·.withWords words) := by
  cases setter with
  | mode =>
    by_cases h : o.mode.isSome <;>
      simp [Options.set?, Options.withWords, h, Function.comp_def]
  | logLevel =>
    by_cases h : o.logLevel.isSome <;> simp [Options.set?, Options.withWords, h, Function.comp_def]
  | config =>
    by_cases h : o.config.isSome <;> simp [Options.set?, Options.withWords, h, Function.comp_def]

/-- The environment does not change the words. -/
theorem complete?_withWords (o : Options) (words : List String) (logLevel config : Option String) :
    (o.withWords words).complete? logLevel config =
      (o.complete? logLevel config).map (·.withWords words) := by
  unfold Options.complete?
  cases hl : o.logLevel with
  | some l => cases hc : o.config <;> cases config <;> simp [hl, hc, set?_withWords]
  | none =>
    cases logLevel with
    | none => cases hc : o.config <;> cases config <;> simp [hl, hc, set?_withWords]
    | some v =>
      cases ho : o.set? v .logLevel with
      | none => simp [hl, ho, set?_withWords]
      | some p => cases hc : p.config <;> cases config <;> simp [hl, ho, hc, set?_withWords]

end CommandLine

namespace Session

/-! ## The run -/

/-- What the arguments, the environment and the settings file say together: the settings that count
and the words of the question. -/
inductive Opens (host : Host Id) (arguments : List String) (s : Settings) (words : List String) :
    Prop
  | intro {given options : Options} {settings : Settings}
    (parsed : parse? arguments = some (.run given))
    (completed : given.complete? (host.lookup? logVariable) (host.lookup? configVariable) =
      some options)
    (loaded : loadSettings host options.config = .ok settings)
    (settings_eq : options.override settings = s) (words_eq : options.words = words)

/-- A host with another input. -/
def feed (host : Host Id) (input : String) : Host Id := { host with input := input }

namespace Opens

variable {host : Host Id} {arguments : List String} {s : Settings} {words : List String}

/-- The input has no part in the settings. -/
theorem feed (h : Opens host arguments s words) (input : String) :
    Opens (feed host input) arguments s words := by
  obtain ⟨parsed, completed, loaded, settings_eq, words_eq⟩ := h
  exact ⟨parsed, completed, loaded, settings_eq, words_eq⟩

theorem run_eq (h : Opens host arguments s words) :
    run host arguments = .ok (report s (questions host words)) := by
  obtain ⟨parsed, completed, loaded, rfl, rfl⟩ := h
  simp only [run, parsed, bind, pure]
  rw [completed]
  simp only
  rw [loaded]

/-- Without words the lines of the input are the questions. -/
theorem run_feed (h : Opens host arguments s []) (input : String) :
    run (Session.feed host input) arguments = .ok (report s (inputLines input.toList)) :=
  (h.feed input).run_eq

/-- The words are one question. -/
theorem run_words (h : Opens host arguments s words) (ne_nil : words ≠ []) :
    run host arguments = .ok (report s [(" ".intercalate words).toList]) := by
  have question : questions host words = [(" ".intercalate words).toList] := if_neg ne_nil
  rw [h.run_eq, question]

/-- More arguments that are words only give these words. -/
theorem append (h : Opens host arguments s []) (dashes : "--" ∉ arguments) {more : List String}
    (hmore : ∀ o, read? o more = some (.run (o.withWords words))) :
    Opens host (arguments ++ more) s words := by
  obtain ⟨parsed, completed, loaded, settings_eq, words_eq⟩ := h
  refine ⟨(read?_append dashes parsed more).trans (hmore _),
    (complete?_withWords ..).trans (congrArg _ completed), loaded, settings_eq, ?_⟩
  rw [Options.withWords_words, words_eq, List.nil_append]

end Opens

/-- **A run treats its lines one by one, and the words of a question as a line.** -/
theorem run_lines {host : Host Id} {options : List String} {s : Settings}
    (opens : Opens host options s []) :
    (∀ input, run (feed host input) options = .ok (report s (inputLines input.toList))) ∧
    (∀ lines, (∀ line ∈ lines, '\n' ∉ line) → ∃ input : String, inputLines input.toList = lines) ∧
    (∀ lines, (report s lines).Joins (lines.map fun line => report s [line])) ∧
    (∀ lines more, (report s (lines ++ more)).Joins [report s lines, report s more]) ∧
    (∀ line, line.all isBlank = true → report s [line] = Report.empty) ∧
    (∀ lines, (report s lines).code = 1 ↔
      ∃ line ∈ lines, line.all isBlank = false ∧ ∃ fault, s.answer line = .error fault) ∧
    ∀ words, words ≠ [] → '\n' ∉ (" ".intercalate words).toList →
      (" ".intercalate words).toList.getLast? ≠ some '\r' →
      (∀ arguments, Opens host arguments s words →
        run host arguments = run (feed host (" ".intercalate words ++ "\n")) options ∧
        run host arguments = run (feed host (" ".intercalate words)) options) ∧
      ("--" ∉ options → Opens host (options ++ "--" :: words) s words ∧
        ((∀ w ∈ words, Argument.ofString w = .word) → Opens host (options ++ words) s words)) := by
  refine ⟨opens.run_feed, fun _ => exists_inputLines, report_joins_lines s, report_joins_append s,
    fun _ => report_blank s, code_report_iff s, fun words ne_nil no_feed no_return => ⟨?_, ?_⟩⟩
  · intro arguments h
    have ended : inputLines (" ".intercalate words ++ "\n").toList =
        [(" ".intercalate words).toList] := by
      rw [String.toList_append]
      exact inputLines_line no_feed no_return []
    rw [h.run_words ne_nil, opens.run_feed, opens.run_feed, ended]
    refine ⟨rfl, ?_⟩
    by_cases empty : (" ".intercalate words).toList = []
    · rw [empty, report_blank s rfl]
      rfl
    · rw [inputLines_unended no_feed empty]
  · intro dashes
    exact ⟨opens.append dashes fun o => read?_dashes o words,
      fun hwords => opens.append dashes (read?_words hwords)⟩

/-- A host without variables, files and input. -/
def bareHost : Host Id := ⟨fun _ => none, fun _ => none, ""⟩

theorem opens_bareHost : Opens bareHost ["--json"] { json := true } [] :=
  @Opens.intro _ _ _ _ { json := true } { json := true } {} rfl rfl rfl rfl rfl

/-- A line that fails, a blank one and one with an answer, and a question in three words. -/
theorem run_lines_json :
    Opens bareHost ["--json"] { json := true } [] ∧
      run (feed bareHost "1/0\n\n2 + 2\n") ["--json"] =
        .ok (report { json := true } ["1/0".toList, [], "2 + 2".toList]) ∧
      (report { json := true } ["1/0".toList, [], "2 + 2".toList]).Joins
        [report { json := true } ["1/0".toList], report { json := true } [[]],
          report { json := true } ["2 + 2".toList]] ∧
      run bareHost ["--json", "--", "2", "+", "2"] = run (feed bareHost "2 + 2\n") ["--json"] := by
  obtain ⟨reports, -, joins, -, -, -, words⟩ := run_lines opens_bareHost
  refine ⟨opens_bareHost, reports _, joins _, ?_⟩
  obtain ⟨same, dashes⟩ := words ["2", "+", "2"] (by simp) (by decide) (by decide)
  exact (same _ (dashes (by decide)).1).1

end Session

end Reckoner
