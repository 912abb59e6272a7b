import Muster.Text.ScriptTable

/-!
# Scripts of characters
-/

namespace Muster.Text.Script

/-- The code of the script of the character with number `n`, counted from the start of the runs. -/
def find (n : Nat) : List (String × Nat) → String
  | [] => "Zzzz"
  | (code, size) :: rest => if n < size then code else find (n - size) rest

def ofChar (c : Char) : String := find c.toNat runs

/-- The code of a script by its name or code in small letters without separators. -/
def code? (name : String) : Option String :=
  (names.find? fun (code, long) => long == name || code.map Char.toLower == name).map (·.1)

end Muster.Text.Script
