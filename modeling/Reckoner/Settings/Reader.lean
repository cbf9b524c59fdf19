import Reckoner.Json.Reader
import Reckoner.Settings.Basic

/-!
# Reading settings

Settings are written as a JSON object with a member for each field, or as an array of the fields in
their order. What is missing keeps its default. An object may have other members too, but none of
the fields twice; an array has no more items than there are fields. A choice is written by its
name, or as an object whose one member has that name and the value null.
-/

namespace Reckoner.Settings

/-- The name of a choice. -/
def readName? : Json → Option String
  | .string text => text.map String.ofList
  | .object [(key, .null)] => key.map String.ofList
  | _ => none

/-- A level. -/
def readLevel? (value : Json) : Option LogLevel := (readName? value).bind LogLevel.ofName?

/-- A mode. -/
def readMode? (value : Json) : Option ModeChoice := (readName? value).bind ModeChoice.ofName?

/-- A truth value. -/
def readBool? : Json → Option Bool
  | .bool b => some b
  | _ => none

/-- A value that may be missing, and then is `default`. -/
def orDefault {α : Type} (read? : Json → Option α) (default : α) : Option Json → Option α
  | none => some default
  | some value => read? value

/-- The settings of four values, each of which may be missing. -/
def ofFields? (logLevel mode steps json : Option Json) : Option Settings := do
  let d : Settings := {}
  return {
    logLevel := ← orDefault readLevel? d.logLevel logLevel
    mode := ← orDefault readMode? d.mode mode
    steps := ← orDefault readBool? d.steps steps
    json := ← orDefault readBool? d.json json }

/-- The value of a member that may be missing but not repeated. -/
def member? (name : String) (members : List (Option (List Char) × Json)) : Option (Option Json) :=
  match members.filter fun m => m.1 == some name.toList with
  | [] => some none
  | [m] => some (some m.2)
  | _ => none

/-- The settings that a JSON value states. -/
def ofJson? : Json → Option Settings
  | .object members =>
    if members.all (·.1.isSome) then do
      ofFields? (← member? "niveau_log" members) (← member? "mode" members)
        (← member? "demarche" members) (← member? "json" members)
    else none
  | .array items =>
    if items.length ≤ 4 then ofFields? items[0]? items[1]? items[2]? items[3]? else none
  | _ => none

/-- The settings that a JSON text states. -/
def ofText? (text : List Char) : Option Settings := (Json.ofText? text).bind ofJson?

end Reckoner.Settings
