/-!
# Values of JSON

The parts of JSON text as they are written: the members of an object in their order, repeated ones
too, and numbers by their digits. A string literal may escape half of a surrogate pair, and then
spells no text.
-/

namespace Reckoner

/-- A JSON value. -/
inductive Json
  | null
  | bool (value : Bool)
  | number (digits : List Char)
  /-- The text of a string literal, if it spells one. -/
  | string (text : Option (List Char))
  | array (items : List Json)
  | object (members : List (Option (List Char) × Json))

end Reckoner
