import Muster.Text.UpperTable

/-!
# Upper case

The full upper-case form of a text, character by character: a character may become several, as the
sharp s becomes two letters. ASCII is settled without the table.
-/

namespace Muster.Text

namespace Upper

/-- Where the tables send a character. -/
def lookUp (c : Char) : List Char :=
  match several.lookup c.toNat with
  | some cs => cs.map Char.ofNat
  | none =>
    match runs.find? fun r =>
        r.first ≤ c.toNat && c.toNat ≤ r.last && (c.toNat - r.first) % r.step = 0 with
    | some r => [Char.ofNat (c.toNat + r.shift).toNat]
    | none => [c]

end Upper

/-- The capital form of a character. -/
def upperChar (c : Char) : List Char :=
  if c.toNat < 128 then [c.toUpper] else Upper.lookUp c

/-- The capital form of each character in turn. -/
def uppercase (s : List Char) : List Char := s.flatMap upperChar

/-- The capital form of a text. -/
def upper (s : String) : String := String.ofList (uppercase s.toList)

@[simp] theorem uppercase_nil : uppercase [] = [] := rfl

@[simp] theorem uppercase_append (s t : List Char) :
    uppercase (s ++ t) = uppercase s ++ uppercase t := by simp [uppercase]

@[simp] theorem toList_upper (s : String) : (upper s).toList = uppercase s.toList :=
  String.toList_ofList

end Muster.Text
