import Reckoner.Settings.Basic

/-!
# The command line

The words of a question may stand anywhere between the options, and two dashes end the options. An
option with a value takes it from behind an equal sign or from the next argument, which then must
not look like an option. Options are read in their order, so a request for the version is answered
unless something before it is wrong. Where an option is not given, its variable of the environment
counts in its place.
-/

namespace Reckoner.CommandLine

/-- What the options ask for, and the words of the question. -/
structure Options where
  mode : Option ModeChoice := none
  json : Bool := false
  /-- Whether only the answer is shown, without the steps. -/
  brief : Bool := false
  logLevel : Option LogLevel := none
  /-- The path of the settings file. -/
  config : Option String := none
  words : List String := []

/-- What a command line asks for. -/
inductive Command
  | version
  | help
  | run (options : Options)

/-- The form of an argument. -/
inductive Argument
  | word
  | endOfOptions
  /-- An option by its name, with the value behind an equal sign. -/
  | long (name : String) (value : Option String)
  /-- A group of options by their letters, of which the first decides. -/
  | short (letter : Char)

/-- The form of an argument. A single dash is a word. -/
def Argument.ofString (s : String) : Argument :=
  match s.toList with
  | ['-', '-'] => .endOfOptions
  | '-' :: '-' :: body =>
    .long (String.ofList (body.takeWhile (· ≠ '=')))
      (match body.dropWhile (· ≠ '=') with
      | [] => none
      | _ :: value => some (String.ofList value))
  | '-' :: letter :: _ => .short letter
  | _ => .word

/-- The options that have a value. -/
inductive Setter
  | mode
  | logLevel
  | config

/-- The option of a name that has a value. -/
def Setter.ofName? : String → Option Setter
  | "mode" => some .mode
  | "log-level" => some .logLevel
  | "config" => some .config
  | _ => none

/-- A path, which has at least one character. -/
def path? (s : String) : Option String := if s = "" then none else some s

/-- Set an option to a value; none if it is set already or the value is no value for it. -/
def Options.set? (o : Options) (value : String) : Setter → Option Options
  | .mode =>
    if o.mode.isSome then none
    else (ModeChoice.ofName? value).map fun v => { o with mode := some v }
  | .logLevel =>
    if o.logLevel.isSome then none
    else (LogLevel.ofName? value).map fun v => { o with logLevel := some v }
  | .config =>
    if o.config.isSome then none
    else (path? value).map fun v => { o with config := some v }

/-- Set an option that has no value; none if it is set already or there is no such option. -/
def Options.setFlag? (o : Options) : String → Option Options
  | "json" => if o.json then none else some { o with json := true }
  | "sans-demarche" => if o.brief then none else some { o with brief := true }
  | _ => none

/-- Whether the next argument can be the value of an option. -/
def isValue (s : String) : Bool :=
  match Argument.ofString s with
  | .word => true
  | _ => false

/-- Read arguments, given what was read before them; none if they are wrong. -/
def read? (o : Options) : List String → Option Command
  | [] => some (.run o)
  | s :: rest =>
    match Argument.ofString s with
    | .word => read? { o with words := o.words ++ [s] } rest
    | .endOfOptions => some (.run { o with words := o.words ++ rest })
    | .short 'V' => some .version
    | .short 'h' => some .help
    | .short _ => none
    | .long name (some value) => do
      let o ← o.set? value (← Setter.ofName? name)
      read? o rest
    | .long name none =>
      match Setter.ofName? name with
      | some setter =>
        match rest with
        | [] => none
        | value :: rest =>
          if isValue value then do
            let o ← o.set? value setter
            read? o rest
          else none
      | none =>
        if name = "version" then some .version
        else if name = "help" then some .help
        else do
          let o ← o.setFlag? name
          read? o rest

/-- What the arguments ask for; none if they are wrong. -/
def parse? (arguments : List String) : Option Command := read? {} arguments

/-- The options with the values of the environment for those not given; none if such a value is
wrong. -/
def Options.complete? (o : Options) (logLevel config : Option String) : Option Options := do
  let o ← match o.logLevel, logLevel with
    | none, some value => o.set? value .logLevel
    | _, _ => some o
  match o.config, config with
  | none, some value => o.set? value .config
  | _, _ => some o

/-- The settings of a file, with what the options say in place of what they were. -/
def Options.override (o : Options) (s : Settings) : Settings where
  logLevel := o.logLevel.getD s.logLevel
  mode := o.mode.getD s.mode
  steps := s.steps && !o.brief
  json := s.json || o.json

end Reckoner.CommandLine
