/-!
# Blank characters

The characters with the Unicode property White_Space, and cutting them off both ends of a text.
-/

namespace Muster.Text

/-- Every character with the property White_Space. -/
def isBlank (c : Char) : Bool :=
  let n := c.toNat
  (9 ≤ n && n ≤ 13) || n = 0x20 || n = 0x85 || n = 0xA0 || n = 0x1680 ||
  (0x2000 ≤ n && n ≤ 0x200A) || n = 0x2028 || n = 0x2029 || n = 0x202F || n = 0x205F || n = 0x3000

/-- Cuts `p` off the end. -/
def dropEndWhile (p : Char → Bool) (s : List Char) : List Char :=
  (s.reverse.dropWhile p).reverse

/-- Cuts the blanks off both ends. -/
def trimmed (s : List Char) : List Char := dropEndWhile isBlank (s.dropWhile isBlank)

/-- Cuts the blanks off both ends of a text. -/
def trim (s : String) : String := String.ofList (trimmed s.toList)

@[simp] theorem toList_trim (s : String) : (trim s).toList = trimmed s.toList :=
  String.toList_ofList

@[simp] theorem trimmed_nil : trimmed [] = [] := rfl

/-- The usual space is blank, and so is the ideographic one. -/
example : isBlank ' ' ∧ isBlank '\u3000' ∧ ¬ isBlank '\u200b' := by decide

end Muster.Text
