import Reckoner.Answer

/-!
# Settings

What a user can choose: how much is logged, the mode of analysis, whether the steps are shown, and
whether answers are written as JSON.
-/

namespace Reckoner

/-- How much is logged, from nothing to everything. -/
inductive LogLevel
  | off
  | error
  | warn
  | info
  | debug
  | trace
  deriving DecidableEq

/-- The level of a name. -/
def LogLevel.ofName? : String → Option LogLevel
  | "off" => some .off
  | "error" => some .error
  | "warn" => some .warn
  | "info" => some .info
  | "debug" => some .debug
  | "trace" => some .trace
  | _ => none

/-- The name of a level. -/
def LogLevel.name : LogLevel → String
  | .off => "off"
  | .error => "error"
  | .warn => "warn"
  | .info => "info"
  | .debug => "debug"
  | .trace => "trace"

theorem LogLevel.ofName?_name (l : LogLevel) : ofName? l.name = some l := by cases l <;> rfl

/-- The mode of analysis: found from the text, or fixed. -/
inductive ModeChoice
  | auto
  | fixed (mode : Mode)
  deriving DecidableEq

/-- The choice of a name. -/
def ModeChoice.ofName? : String → Option ModeChoice
  | "auto" => some .auto
  | "arithmetique" => some (.fixed .arithmetic)
  | "algebre" => some (.fixed .algebra)
  | _ => none

/-- The name of a choice. -/
def ModeChoice.name : ModeChoice → String
  | .auto => "auto"
  | .fixed mode => mode.name

theorem ModeChoice.ofName?_name (m : ModeChoice) : ofName? m.name = some m := by
  rcases m with - | mode
  · rfl
  · cases mode <;> rfl

/-- The fixed mode, if there is one. -/
def ModeChoice.mode? : ModeChoice → Option Mode
  | .auto => none
  | .fixed mode => some mode

/-- The settings of a run. -/
structure Settings where
  logLevel : LogLevel := .warn
  mode : ModeChoice := .auto
  /-- Whether the steps are shown before the answer. -/
  steps : Bool := true
  /-- Whether each answer is written as a JSON object. -/
  json : Bool := false
  deriving DecidableEq

/-- Answer a text in the mode of the settings. -/
def Settings.answer (s : Settings) (text : List Char) : Except Fault Answer :=
  match s.mode.mode? with
  | some mode => answerIn mode text
  | none => Reckoner.answer text

end Reckoner
