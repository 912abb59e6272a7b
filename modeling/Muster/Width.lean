/-!
# Widths

The bounds of whole numbers of 32 and of 64 bits.
-/

namespace Muster.Width

/-- How many numbers 32 bits tell apart. -/
def count32 : Nat := 4294967296

/-- How many numbers 64 bits tell apart. -/
def count64 : Nat := 18446744073709551616

/-- The bounds of 32 bits with a sign. -/
def least32 : Int := -2147483648
def greatest32 : Int := 2147483647

/-- The bounds of 64 bits with a sign. -/
def least64 : Int := -9223372036854775808
def greatest64 : Int := 9223372036854775807

example : count32 = 2 ^ 32 ∧ count64 = 2 ^ 64 := by decide

example : least32 = -2 ^ 31 ∧ greatest32 = 2 ^ 31 - 1 := by decide

example : least64 = -2 ^ 63 ∧ greatest64 = 2 ^ 63 - 1 := by decide

end Muster.Width
