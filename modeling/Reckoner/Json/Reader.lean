import Reckoner.Json.Value

/-!
# Reading JSON

Strict JSON: no comments, no commas at the end, no leading zeros, no controls inside strings, and
nothing but blanks around the one value. Each reader takes its part off the front of a text and
gives back the rest; none, if the text starts otherwise. Arrays and objects nest to any depth: the
fuel of the readers counts their calls, and the text bounds how many there can be.
-/

namespace Reckoner.Json

/-- The blanks of JSON. -/
def isSpace (c : Char) : Bool := c = ' ' || c = '\t' || c = '\n' || c = '\r'

/-- A text without the blanks at its start. -/
def skipSpace (text : List Char) : List Char := text.dropWhile isSpace

/-! ## Numbers -/

/-- One or more digits. -/
def readDigits? (text : List Char) : Option (List Char × List Char) :=
  match text.takeWhile Char.isDigit with
  | [] => none
  | digits => some (digits, text.dropWhile Char.isDigit)

/-- The whole part of a number: zero, or digits that do not start with zero. -/
def readWhole? : List Char → Option (List Char × List Char)
  | '0' :: rest => if rest.head?.any Char.isDigit then none else some (['0'], rest)
  | text => readDigits? text

/-- The fraction of a number, if a point follows. -/
def readFraction? : List Char → Option (List Char × List Char)
  | '.' :: rest => (readDigits? rest).map fun (digits, rest) => ('.' :: digits, rest)
  | text => some ([], text)

/-- The power of ten of a number, if its mark follows. -/
def readPower? : List Char → Option (List Char × List Char)
  | c :: rest =>
    if c = 'e' || c = 'E' then
      match rest with
      | '+' :: rest => (readDigits? rest).map fun (digits, rest) => (c :: '+' :: digits, rest)
      | '-' :: rest => (readDigits? rest).map fun (digits, rest) => (c :: '-' :: digits, rest)
      | rest => (readDigits? rest).map fun (digits, rest) => (c :: digits, rest)
    else some ([], c :: rest)
  | [] => some ([], [])

/-- A number without its sign. -/
def readUnsigned? (text : List Char) : Option (List Char × List Char) := do
  let (whole, text) ← readWhole? text
  let (fraction, text) ← readFraction? text
  let (power, text) ← readPower? text
  return (whole ++ fraction ++ power, text)

/-- A number. -/
def readNumber? : List Char → Option (List Char × List Char)
  | '-' :: rest => (readUnsigned? rest).map fun (digits, rest) => ('-' :: digits, rest)
  | text => readUnsigned? text

/-! ## Strings -/

/-- The value of a hexadecimal digit. -/
def hexValue? (c : Char) : Option Nat :=
  if c.isDigit then some (c.toNat - '0'.toNat)
  else if 'a' ≤ c ∧ c ≤ 'f' then some (c.toNat - 'a'.toNat + 10)
  else if 'A' ≤ c ∧ c ≤ 'F' then some (c.toNat - 'A'.toNat + 10)
  else none

/-- The value of four hexadecimal digits. -/
def hexCode? (a b c d : Char) : Option Nat := do
  return (((← hexValue? a) * 16 + (← hexValue? b)) * 16 + (← hexValue? c)) * 16 + (← hexValue? d)

/-- The character of a simple escape. -/
def simpleEscape? : Char → Option Char
  | '"' => some '"'
  | '\\' => some '\\'
  | '/' => some '/'
  | 'b' => some '\x08'
  | 'f' => some '\x0c'
  | 'n' => some '\n'
  | 'r' => some '\r'
  | 't' => some '\t'
  | _ => none

/-- A part of a string literal: a character, or half of a surrogate pair by its code. -/
inductive Unit16
  | char (c : Char)
  | half (code : Nat)

/-- The part of an escape with a code. -/
def Unit16.ofCode (code : Nat) : Unit16 :=
  if 0xD800 ≤ code ∧ code < 0xE000 then .half code else .char (Char.ofNat code)

/-- The parts of a string literal up to its closing quote, and the rest. -/
def readParts? : List Char → Option (List Unit16 × List Char)
  | [] => none
  | '"' :: rest => some ([], rest)
  | '\\' :: 'u' :: a :: b :: c :: d :: rest => do
    let code ← hexCode? a b c d
    let (parts, rest) ← readParts? rest
    return (Unit16.ofCode code :: parts, rest)
  | '\\' :: c :: rest => do
    let c ← simpleEscape? c
    let (parts, rest) ← readParts? rest
    return (.char c :: parts, rest)
  | c :: rest =>
    if c.toNat < 0x20 || c = '\\' then none
    else do
      let (parts, rest) ← readParts? rest
      return (.char c :: parts, rest)

/-- The text of the parts: each upper half joins the lower half behind it, and no half is left. -/
def joinParts? : List Unit16 → Option (List Char)
  | [] => some []
  | .char c :: rest => (joinParts? rest).map (c :: ·)
  | .half high :: .half low :: rest =>
    if high < 0xDC00 ∧ 0xDC00 ≤ low then
      (joinParts? rest).map
        (Char.ofNat (0x10000 + (high - 0xD800) * 0x400 + (low - 0xDC00)) :: ·)
    else none
  | .half _ :: _ => none

/-- A string literal behind its opening quote: the text that it spells, if any, and the rest. -/
def readString? (text : List Char) : Option (Option (List Char) × List Char) :=
  (readParts? text).map fun (parts, rest) => (joinParts? parts, rest)

/-! ## Values -/

/-- A text without a word at its start. -/
def dropWord? : List Char → List Char → Option (List Char)
  | [], text => some text
  | w :: ws, c :: cs => if w = c then dropWord? ws cs else none
  | _ :: _, [] => none

mutual

/-- A value, blanks allowed before it. -/
def readValue? : Nat → List Char → Option (Json × List Char)
  | 0, _ => none
  | fuel + 1, text =>
    match skipSpace text with
    | [] => none
    | 'n' :: rest => (dropWord? "ull".toList rest).map (Json.null, ·)
    | 't' :: rest => (dropWord? "rue".toList rest).map (Json.bool true, ·)
    | 'f' :: rest => (dropWord? "alse".toList rest).map (Json.bool false, ·)
    | '"' :: rest => (readString? rest).map fun (s, rest) => (Json.string s, rest)
    | '[' :: rest =>
      match skipSpace rest with
      | ']' :: rest => some (Json.array [], rest)
      | _ => (readItems? fuel rest).map fun (items, rest) => (Json.array items, rest)
    | '\x7b' :: rest =>
      match skipSpace rest with
      | '\x7d' :: rest => some (Json.object [], rest)
      | _ => (readMembers? fuel rest).map fun (members, rest) => (Json.object members, rest)
    | text => (readNumber? text).map fun (digits, rest) => (Json.number digits, rest)

/-- The items of an array up to its closing bracket; there is at least one. -/
def readItems? : Nat → List Char → Option (List Json × List Char)
  | 0, _ => none
  | fuel + 1, text => do
    let (item, rest) ← readValue? fuel text
    match skipSpace rest with
    | ']' :: rest => return ([item], rest)
    | ',' :: rest => do
      let (items, rest) ← readItems? fuel rest
      return (item :: items, rest)
    | _ => none

/-- The members of an object up to its closing brace; there is at least one. -/
def readMembers? : Nat → List Char → Option (List (Option (List Char) × Json) × List Char)
  | 0, _ => none
  | fuel + 1, text =>
    match skipSpace text with
    | '"' :: rest => do
      let (key, rest) ← readString? rest
      match skipSpace rest with
      | ':' :: rest => do
        let (value, rest) ← readValue? fuel rest
        match skipSpace rest with
        | '\x7d' :: rest => return ([(key, value)], rest)
        | ',' :: rest => do
          let (members, rest) ← readMembers? fuel rest
          return ((key, value) :: members, rest)
        | _ => none
      | _ => none
    | _ => none

end

/-- The one value of a text. Each call of a reader that takes no character is followed by one that
does, so twice the length is fuel enough. -/
def ofText? (text : List Char) : Option Json := do
  let (value, rest) ← readValue? (2 * text.length + 2) text
  if skipSpace rest = [] then some value else none

end Reckoner.Json
