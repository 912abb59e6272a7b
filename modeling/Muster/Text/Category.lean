import Muster.Text.CategoryTable

/-!
# Classes of characters

What the general category of a character says about it: whether it is a word character, a decimal
digit, extends the character before it, or shows when printed.
-/

namespace Muster.Text

namespace Category

/-- The category of the character with number `n`, counted from the start of the runs `l`. -/
def find (n : Nat) : List (Category × Nat) → Category
  | [] => cn
  | (k, size) :: rest => if n < size then k else find (n - size) rest

/-- The category of an ASCII character. -/
def ofAscii (n : Nat) : Category :=
  if n < 32 ∨ n = 127 then cc
  else if n = 32 then zs
  else if 48 ≤ n ∧ n ≤ 57 then nd
  else if 65 ≤ n ∧ n ≤ 90 then lu
  else if 97 ≤ n ∧ n ≤ 122 then ll
  else find n runs

end Category

def category (c : Char) : Category :=
  if c.toNat < 128 then Category.ofAscii c.toNat else Category.find c.toNat Category.runs

private def between (ranges : List (Nat × Nat)) (c : Char) : Bool :=
  ranges.any fun (lo, hi) => lo ≤ c.toNat && c.toNat ≤ hi

/-- Letters, marks, decimal digits, connectors, enclosed letters and the two joiners. -/
def isWord (c : Char) : Bool :=
  (category c) ∈ [.lu, .ll, .lt, .lm, .lo, .nl, .mn, .mc, .me, .nd, .pc] ||
    between [(0x200C, 0x200D), (0x24B6, 0x24E9), (0x1F130, 0x1F149), (0x1F150, 0x1F169),
      (0x1F170, 0x1F189)] c

/-- Decimal digits of any script. -/
def isDecimal (c : Char) : Bool := category c = .nd

/-- Characters that extend the one before them: marks without space of their own, and a few more. -/
def isExtender (c : Char) : Bool :=
  !(c.toNat < 128) && ((category c) ∈ [.mn, .me] ||
    between [(0x9BE, 0x9BE), (0x9D7, 0x9D7), (0xB3E, 0xB3E), (0xB57, 0xB57), (0xBBE, 0xBBE),
      (0xBD7, 0xBD7), (0xCC2, 0xCC2), (0xCD5, 0xCD6), (0xD3E, 0xD3E), (0xD57, 0xD57),
      (0xDCF, 0xDCF), (0xDDF, 0xDDF), (0x1B35, 0x1B35), (0x200C, 0x200C), (0x302E, 0x302F),
      (0xFF9E, 0xFF9F), (0x1133E, 0x1133E), (0x11357, 0x11357), (0x114B0, 0x114B0),
      (0x114BD, 0x114BD), (0x115AF, 0x115AF), (0x11930, 0x11930), (0x1D165, 0x1D165),
      (0x1D16E, 0x1D172), (0xE0020, 0xE007F)] c)

/-- Characters that leave a mark when printed, and the usual space. -/
def isPrintable (c : Char) : Bool :=
  if c.toNat < 128 then 32 ≤ c.toNat && c.toNat < 127
  else !(category c ∈ [.cc, .cf, .cs, .co, .cn, .zl, .zp, .zs])

end Muster.Text
