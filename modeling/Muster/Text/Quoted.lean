import Muster.Text.Category

/-!
# Quoted texts

A text between double quotes in which every character can be seen: quotes and backslashes are escaped,
controls have a letter, and what does not show is given by number.
-/

namespace Muster.Text.Quoted

/-- The number of a character in hexadecimal, between braces. -/
def numbered (c : Char) : List Char :=
  ['\\', 'u', '\x7b'] ++ Nat.toDigits 16 c.toNat ++ ['\x7d']

def escape (c : Char) : List Char :=
  if c = '\x00' then ['\\', '0']
  else if c = '\t' then ['\\', 't']
  else if c = '\r' then ['\\', 'r']
  else if c = '\n' then ['\\', 'n']
  else if c = '"' then ['\\', '"']
  else if c = '\\' then ['\\', '\\']
  else if isPrintable c && !isExtender c then [c]
  else numbered c

def encode (s : List Char) : List Char := '"' :: s.flatMap escape ++ ['"']

end Quoted

/-- The text between double quotes, with all of it visible. -/
def quoted (s : String) : String := String.ofList (Quoted.encode s.toList)

end Muster.Text
