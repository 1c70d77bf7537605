import FactCube.Text.Shown

/-!
# Quoted names

Messages show the name of a file between double quotes. Double quotes, backslashes, tabs, ends of
lines and NUL are escaped; other characters that do not show on their own stand as their numbers.
-/

namespace FactCube.Text

/-! ## Escapes -/

/-- The digits of a number in base sixteen, in lower case. -/
def hexDigits (n : Nat) : List Char := Nat.toDigits 16 n

/-- The character as it stands between quotes. -/
def escapeShown (c : Char) : List Char :=
  if c == '\t' then ['\\', 't']
  else if c == '\r' then ['\\', 'r']
  else if c == '\n' then ['\\', 'n']
  else if c == '\x00' then ['\\', '0']
  else if c == '"' || c == '\\' then ['\\', c]
  else if isShown c then [c]
  else ['\\', 'u', '{'] ++ hexDigits c.toNat ++ ['}']

/-- The text between double quotes. -/
def quoted (s : String) : String := String.ofList ('"' :: s.toList.flatMap escapeShown ++ ['"'])

end FactCube.Text
