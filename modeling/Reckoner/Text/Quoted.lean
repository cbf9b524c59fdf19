import Reckoner.Unicode.Classes

/-!
# Quoted text

A text inside a message stands between double quotes, with everything that could not be seen or
told apart written as an escape: the quote and the backslash behind a backslash, the four common
controls by a letter, and any other hidden character by its code in hexadecimal.
-/

namespace Reckoner.Text

open Unicode

/-- A character as it stands inside quotes. -/
def escape (c : Char) : List Char :=
  if c = '"' then ['\\', '"']
  else if c = '\\' then ['\\', '\\']
  else if c = '\t' then ['\\', 't']
  else if c = '\n' then ['\\', 'n']
  else if c = '\r' then ['\\', 'r']
  else if c = '\x00' then ['\\', '0']
  else if isHidden c then "\\u\x7b".toList ++ Nat.toDigits 16 c.toNat ++ ['\x7d']
  else [c]

/-- A text between quotes. -/
def quoted (text : List Char) : String :=
  String.ofList ('"' :: text.flatMap escape ++ ['"'])

end Reckoner.Text
