import Muster.Width

/-!
# Whole numbers in decimal

Reading of numbers written in ASCII digits, with an optional sign, within given bounds; and a reading of
unsigned numbers that says what is wrong with a text.
-/

namespace Muster.Text

/-- The value of an ASCII digit. -/
def digit? (c : Char) : Option Nat :=
  if '0' ≤ c ∧ c ≤ '9' then some (c.toNat - '0'.toNat) else none

def isDigit (c : Char) : Bool := (digit? c).isSome

/-- The value of a hexadecimal digit. -/
def hexDigit? (c : Char) : Option Nat :=
  if '0' ≤ c ∧ c ≤ '9' then some (c.toNat - 48)
  else if 'a' ≤ c ∧ c ≤ 'f' then some (c.toNat - 87)
  else if 'A' ≤ c ∧ c ≤ 'F' then some (c.toNat - 55)
  else none

/-- The number that the digits `s` spell after those that made `n`. -/
def digitsValue (n : Nat) : List Char → Nat
  | [] => n
  | c :: rest => digitsValue (n * 10 + (digit? c).getD 0) rest

/-- One or more digits and nothing else. -/
def natural? (s : List Char) : Option Nat :=
  if s.isEmpty || !s.all isDigit then none else some (digitsValue 0 s)

/-- An optional sign and digits. -/
def integer? : List Char → Option Int
  | '-' :: rest => (natural? rest).map fun n => -(n : Int)
  | '+' :: rest => (natural? rest).map Int.ofNat
  | s => (natural? s).map Int.ofNat

/-- An optional sign and digits, for a number between `lo` and `hi`. -/
def integerWithin? (lo hi : Int) (s : List Char) : Option Int :=
  (integer? s).filter fun n => lo ≤ n && n ≤ hi

/-- A number that fits in 32 bits with sign. -/
def int32? : List Char → Option Int := integerWithin? Width.least32 Width.greatest32

/-- A number that fits in 64 bits with sign. -/
def int64? : List Char → Option Int := integerWithin? Width.least64 Width.greatest64

/-- The number that digits of a base spell behind those that made `n`, at most `count` of them, and what
follows. -/
def digitsUpTo (base : Nat) : Nat → Nat → List Char → Nat × List Char
  | 0, n, rest => (n, rest)
  | count + 1, n, c :: rest =>
    match hexDigit? c with
    | some d => if d < base then digitsUpTo base count (n * base + d) rest else (n, c :: rest)
    | none => (n, c :: rest)
  | _ + 1, n, [] => (n, [])

/-- What is wrong with the text of an unsigned number. -/
inductive DigitsFault
  | empty
  | strayCharacter
  | tooLarge
  deriving DecidableEq, Repr

def DigitsFault.message : DigitsFault → String
  | .empty => "cannot parse integer from empty string"
  | .strayCharacter => "invalid digit found in string"
  | .tooLarge => "number too large to fit in target type"

/-- Reads digit by digit and stops at the first fault: a character that is no digit, or a digit
that takes the number beyond `hi`. -/
def naturalWithin (hi n : Nat) : List Char → Except DigitsFault Nat
  | [] => .ok n
  | c :: rest =>
    match digit? c with
    | none => .error .strayCharacter
    | some d => if n * 10 + d ≤ hi then naturalWithin hi (n * 10 + d) rest else .error .tooLarge

/-- An unsigned number up to `hi`; a plus sign may stand before it. -/
def unsigned (hi : Nat) : List Char → Except DigitsFault Nat
  | [] => .error .empty
  | ['+'] => .error .strayCharacter
  | '+' :: rest => naturalWithin hi 0 rest
  | s => naturalWithin hi 0 s

end Muster.Text
