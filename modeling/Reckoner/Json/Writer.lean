/-!
# Writing JSON

Strings, arrays of strings and objects in compact form. Only the quote, the backslash and the
controls below the space are escaped, and what is written for them is visible
(`eq_or_visible_of_mem_escape`), so nothing that is written has such a control in it.
-/

namespace Reckoner.Json

/-- A character inside a string literal. -/
def escape (c : Char) : List Char :=
  if c = '"' then ['\\', '"']
  else if c = '\\' then ['\\', '\\']
  else if c = '\x08' then ['\\', 'b']
  else if c = '\t' then ['\\', 't']
  else if c = '\n' then ['\\', 'n']
  else if c = '\x0c' then ['\\', 'f']
  else if c = '\r' then ['\\', 'r']
  else if c.toNat < 0x20 then
    ['\\', 'u', '0', '0', Nat.digitChar (c.toNat / 16), Nat.digitChar (c.toNat % 16)]
  else [c]

/-- What is written for a character is the character itself, which then is none of the controls below
the space, or visible ASCII. -/
theorem eq_or_visible_of_mem_escape {c d : Char} (h : d ∈ escape c) :
    d = c ∧ 0x20 ≤ c.toNat ∨ 0x20 ≤ d.toNat ∧ d.toNat < 0x7F := by
  have digit : ∀ n < 16, 0x20 ≤ (Nat.digitChar n).toNat ∧ (Nat.digitChar n).toNat < 0x7F := by
    decide
  have pair {x y : Char} (hx : 0x20 ≤ x.toNat ∧ x.toNat < 0x7F)
      (hy : 0x20 ≤ y.toNat ∧ y.toNat < 0x7F) (hd : d ∈ [x, y]) :
      0x20 ≤ d.toNat ∧ d.toNat < 0x7F := by
    rcases List.mem_cons.1 hd with rfl | hd
    · exact hx
    · exact List.mem_singleton.1 hd ▸ hy
  unfold escape at h
  -- the seven characters with an escape of two characters
  iterate 7
    split at h
    · exact .inr (pair (by decide) (by decide) h)
  split at h
  · right
    simp only [List.mem_cons, List.not_mem_nil, or_false] at h
    rcases h with rfl | rfl | rfl | rfl | rfl | rfl
    · decide
    · decide
    · decide
    · decide
    · exact digit _ (by omega)
    · exact digit _ (by omega)
  · obtain rfl := List.mem_singleton.1 h
    exact .inl ⟨rfl, by omega⟩

/-- A string literal. -/
def writeString (s : String) : String :=
  String.ofList ('"' :: s.toList.flatMap escape ++ ['"'])

/-- An array of strings. -/
def writeStrings (items : List String) : String :=
  "[" ++ ",".intercalate (items.map writeString) ++ "]"

/-- An object, its members given by their keys and written values. -/
def writeObject (members : List (String × String)) : String :=
  "\x7b" ++ ",".intercalate (members.map fun (key, value) => writeString key ++ ":" ++ value) ++
    "\x7d"

end Reckoner.Json
