import Reckoner.CommandLine
import Reckoner.Json.Writer
import Reckoner.Settings.Reader

/-!
# A run of the program

A run answers the question on the command line, or else each line of the input that is not blank.
Each line has a report of its own, and the report of the run is all of them in order
(`report_append`): a line that fails changes nothing for the lines after it.

What a run needs from outside (variables, files, the input) comes from a `Host`, so that the run
itself is the same function whatever the host is.

A report is what a run writes for its user. What is logged is no part of it: the level of logging is
read and checked with the other settings, and nothing else depends on it.
-/

namespace Reckoner

open Unicode

/-- What a run may ask from outside. -/
structure Host (m : Type → Type) where
  /-- The value of a variable of the environment. -/
  lookup? : String → m (Option String)
  /-- The text of a file, if it can be read. -/
  file? : String → m (Option String)
  /-- All of the input. -/
  input : m String

/-- Why a run does not start. -/
inductive Refusal
  /-- The arguments, or the variables that stand for them, are wrong. -/
  | usage
  /-- The settings file cannot be read. -/
  | unreadable (path : String)
  /-- The settings file holds no settings. -/
  | invalid (path : String)

/-- The wording of a refusal. -/
def Refusal.message : Refusal → String
  | .usage => "arguments refusés (voir --help)"
  | .unreadable path => "lecture de " ++ path
  | .invalid path => "JSON invalide dans " ++ path

/-- What a run writes: lines of output, and the messages of the questions without answer. -/
structure Report where
  lines : List String
  faults : List String
  deriving DecidableEq

/-- Nothing written. -/
def Report.empty : Report := ⟨[], []⟩

/-- One report after the other. -/
def Report.append (r s : Report) : Report := ⟨r.lines ++ s.lines, r.faults ++ s.faults⟩

/-- The exit code: one if a question has no answer. -/
def Report.code (r : Report) : Nat := if r.faults = [] then 0 else 1

/-- All of the output. -/
def Report.output (r : Report) : String := String.join (r.lines.map (· ++ "\n"))

/-- A message as it is written apart from the output. -/
def errorLine (message : String) : String := "erreur: " ++ message

/-- All that is written apart from the output. -/
def Report.errors (r : Report) : String :=
  String.join ((r.faults.map errorLine).map (· ++ "\n"))

namespace Session

/-! ## Answers -/

/-- An answer as a JSON object. -/
def writeAnswer (a : Answer) : String :=
  Json.writeObject [
    ("mode", Json.writeString a.mode.name),
    ("demarche", Json.writeStrings a.steps),
    ("reponse", Json.writeString a.result)]

/-- The lines that show an answer. -/
def showAnswer (s : Settings) (a : Answer) : List String :=
  if s.json then [writeAnswer a] else if s.steps then a.steps else [a.result]

/-- The report on one question; a blank one is passed over. -/
def reportLine (s : Settings) (line : List Char) : Report :=
  if line.all isBlank then Report.empty
  else
    match s.answer line with
    | .ok a => ⟨showAnswer s a, []⟩
    | .error fault => ⟨[], [fault.message]⟩

/-- The report on some questions. -/
def report (s : Settings) : List (List Char) → Report
  | [] => Report.empty
  | line :: lines => (reportLine s line).append (report s lines)

theorem report_append (s : Settings) (l₁ l₂ : List (List Char)) :
    report s (l₁ ++ l₂) = (report s l₁).append (report s l₂) := by
  induction l₁ with
  | nil => simp [report, Report.append, Report.empty]
  | cons l ls ih => simp [report, Report.append, ih]

/-- The lines of an input. Each ends with a line feed, or a carriage return and a line feed; what
follows the last one is a line too, if there is anything. -/
def inputLines : List Char → List (List Char)
  | [] => []
  | '\n' :: cs => [] :: inputLines cs
  | '\r' :: '\n' :: cs => [] :: inputLines cs
  | c :: cs =>
    match inputLines cs with
    | [] => [[c]]
    | line :: lines => (c :: line) :: lines

/-- A line that is ended by a line feed is read as it stands. -/
theorem inputLines_line {line : List Char} (h : '\n' ∉ line) (h' : line.getLast? ≠ some '\r')
    (rest : List Char) : inputLines (line ++ '\n' :: rest) = line :: inputLines rest := by
  induction line with
  | nil => rfl
  | cons c cs ih =>
    have hc : c ≠ '\n' := fun e => h (e ▸ List.mem_cons_self)
    have hcs : '\n' ∉ cs := fun m => h (List.mem_cons_of_mem _ m)
    rcases cs with - | ⟨d, ds⟩
    · have hr : c ≠ '\r' := fun e => h' (e ▸ rfl)
      rw [List.singleton_append, inputLines]
      · simp [inputLines]
      · simpa using hc
      · simpa using hr
    · have hd : d ≠ '\n' := fun e => hcs (e ▸ List.mem_cons_self)
      have ih := ih hcs (by simpa using h')
      rw [List.cons_append, inputLines, ih]
      · simpa using hc
      · intro cs' hr he
        cases he
        exact hd rfl

/-! ## The run -/

/-- The variable that stands for the logging level. -/
def logVariable : String := "CALCULATRICE_LOG"

/-- The variable that stands for the path of the settings file. -/
def configVariable : String := "CALCULATRICE_CONFIG"

/-- The name of the program and its version. -/
def version : String := "calculatrice 0.1.0"

/-- A summary of the options. -/
def help : List String := [
  "Calculs et équations (degré 1 ou 2) écrits en texte libre",
  "",
  "Usage: calculatrice [OPTIONS] [ENTREE]...",
  "",
  "  --mode <auto|arithmetique|algebre>  Mode d’analyse",
  "  --json                              Sortie JSON",
  "  --sans-demarche                     N’affiche que la réponse finale",
  "  --log-level <NIVEAU>                Niveau de journalisation",
  "  --config <PATH>                     Fichier de réglages JSON",
  "  -h, --help                          Aide",
  "  -V, --version                       Version"]

variable {m : Type → Type} [Monad m]

/-- The settings of the file at a path, or else at the path that the environment names, or else the
default settings. -/
def loadSettings (host : Host m) (path : Option String) : m (Except Refusal Settings) := do
  match path.or (← host.lookup? configVariable) with
  | none => return .ok {}
  | some path =>
    match ← host.file? path with
    | none => return .error (.unreadable path)
    | some text =>
      match Settings.ofText? text.toList with
      | none => return .error (.invalid path)
      | some settings => return .ok settings

/-- The questions of a run: the words of the command line as one, or else the lines of the
input. -/
def questions (host : Host m) (words : List String) : m (List (List Char)) := do
  if words = [] then return inputLines (← host.input).toList
  else return [(" ".intercalate words).toList]

/-- A run with the given arguments. -/
def run (host : Host m) (arguments : List String) : m (Except Refusal Report) := do
  match CommandLine.parse? arguments with
  | none => return .error .usage
  | some .version => return .ok ⟨[version], []⟩
  | some .help => return .ok ⟨help, []⟩
  | some (.run options) =>
    match options.complete? (← host.lookup? logVariable) (← host.lookup? configVariable) with
    | none => return .error .usage
    | some options =>
      match ← loadSettings host options.config with
      | .error refusal => return .error refusal
      | .ok settings =>
        return .ok (report (options.override settings) (← questions host options.words))

end Session

end Reckoner
