import Muster.Text.Blank
import Muster.Text.Decimal

/-!
# Times

Moments of Coordinated Universal Time as seconds since 1970 and a fraction, their text after RFC 3339,
and a lenient reading of such texts: blanks may stand before every number, the separators may be blanks
or small letters, and `UTC` stands for no offset. A fraction of one second or more marks a leap second.
-/

namespace Muster

structure Time where
  /-- Seconds since the start of 1970, rounded down. -/
  seconds : Int
  nanos : Nat
  deriving DecidableEq, Repr

namespace Time

/-- Days from 1970-01-01 to a date of the Gregorian calendar. -/
def dayNumber (year : Int) (month day : Nat) : Int :=
  let year := if month ≤ 2 then year - 1 else year
  let era := year / 400
  let yearOfEra := year - era * 400
  let dayOfYear : Int := (153 * ((month + 9) % 12) + 2) / 5 + day - 1
  era * 146097 + (yearOfEra * 365 + yearOfEra / 4 - yearOfEra / 100 + dayOfYear) - 719468

/-- The date that lies `days` days after 1970-01-01. -/
def dateOf (days : Int) : Int × Nat × Nat :=
  let days := days + 719468
  let era := days / 146097
  let dayOfEra := days - era * 146097
  let yearOfEra := (dayOfEra - dayOfEra / 1460 + dayOfEra / 36524 - dayOfEra / 146096) / 365
  let dayOfYear := dayOfEra - (365 * yearOfEra + yearOfEra / 4 - yearOfEra / 100)
  let shifted := (5 * dayOfYear + 2) / 153
  let day := dayOfYear - (153 * shifted + 2) / 5 + 1
  let month := if shifted < 10 then shifted + 3 else shifted - 9
  (yearOfEra + era * 400 + (if month ≤ 2 then 1 else 0), month.toNat, day.toNat)

def isLeapYear (year : Int) : Bool := year % 4 = 0 && (year % 100 != 0 || year % 400 = 0)

def daysIn (year : Int) (month : Nat) : Nat :=
  if month = 2 then (if isLeapYear year then 29 else 28)
  else if month ∈ [4, 6, 9, 11] then 30 else 31

/-- Years that a date may have. -/
def minYear : Int := -262143
def maxYear : Int := 262142

/-! ### Writing -/

def padded (width n : Nat) : String :=
  let digits := toString n
  "".pushn '0' (width - digits.length) ++ digits

def yearText (year : Int) : String :=
  if 0 ≤ year ∧ year ≤ 9999 then padded 4 year.toNat
  else (if year < 0 then "-" else "+") ++ padded 4 year.natAbs

/-- No fraction, or 3, 6 or 9 digits of it, whatever is enough. -/
def fractionText (nanos : Nat) : String :=
  if nanos = 0 then ""
  else if nanos % 1000000 = 0 then "." ++ padded 3 (nanos / 1000000)
  else if nanos % 1000 = 0 then "." ++ padded 6 (nanos / 1000)
  else "." ++ padded 9 nanos

/-- The text of a moment, as `2024-05-06T07:08:09.123Z`. -/
def text (t : Time) : String :=
  let (year, month, day) := dateOf (t.seconds / 86400)
  let ofDay := (t.seconds % 86400).toNat
  let leap := 1000000000 ≤ t.nanos
  yearText year ++ "-" ++ padded 2 month ++ "-" ++ padded 2 day ++ "T" ++
    padded 2 (ofDay / 3600) ++ ":" ++ padded 2 (ofDay / 60 % 60) ++ ":" ++
    padded 2 (ofDay % 60 + if leap then 1 else 0) ++
    fractionText (if leap then t.nanos - 1000000000 else t.nanos) ++ "Z"

/-! ### Reading -/

open Text (trimmed isBlank isDigit digitsValue)

def skipBlanks (s : List Char) : List Char := s.dropWhile isBlank

/-- One digit or more, at most `width` of them. -/
def digits? (width : Nat) (s : List Char) : Option (Nat × List Char) :=
  let found := (s.take width).takeWhile isDigit
  if found.isEmpty then none else some (digitsValue 0 found, s.drop found.length)

def field? (lo hi : Nat) (s : List Char) : Option (Nat × List Char) :=
  (digits? 2 (skipBlanks s)).filter fun (n, _) => lo ≤ n && n ≤ hi

/-- A year of up to four digits, or of any length after a sign. -/
def year? (s : List Char) : Option (Int × List Char) :=
  match skipBlanks s with
  | '-' :: rest => (digits? rest.length rest).map fun (n, rest) => (-(n : Int), rest)
  | '+' :: rest => (digits? rest.length rest).map fun (n, rest) => ((n : Int), rest)
  | s => (digits? 4 s).map fun (n, rest) => ((n : Int), rest)

def mark? (c : Char) (s : List Char) : Option (List Char) :=
  match skipBlanks s with
  | d :: rest => if c = d then some rest else none
  | [] => none

/-- Up to nine digits after the point count; more of them are passed over. -/
def fraction? : List Char → Option (Nat × List Char)
  | '.' :: rest =>
    (digits? 9 rest).map fun (n, after) =>
      (n * Nat.pow 10 (9 - (rest.length - after.length)), after.dropWhile isDigit)
  | s => some (0, s)

def twoDigits? : List Char → Option (Nat × List Char)
  | a :: b :: rest => if isDigit a && isDigit b then some (digitsValue 0 [a, b], rest) else none
  | _ => none

def offsetDigits? (sign : Int) (s : List Char) : Option (Int × List Char) := do
  let (hours, s) ← twoDigits? s
  let (minutes, s) ← twoDigits? (s.dropWhile fun c => c = ':' || isBlank c)
  if minutes < 60 ∧ hours < 24 then some (sign * (hours * 3600 + minutes * 60 : Nat), s) else none

/-- The seconds by which local time is ahead. -/
def offset? : List Char → Option (Int × List Char)
  | 'Z' :: rest | 'z' :: rest => some (0, rest)
  | '+' :: rest => offsetDigits? 1 rest
  | '-' :: rest | '\u2212' :: rest => offsetDigits? (-1) rest
  | a :: b :: c :: rest =>
    if [a, b, c].map Char.toUpper = ['U', 'T', 'C'] then some (0, rest) else none
  | _ => none

/-- What follows the mark between date and time of day. -/
def separator? : List Char → Option (List Char)
  | 't' :: rest | 'T' :: rest | ' ' :: rest => some rest
  | _ => none

/-- Reads a date and time of day with its offset. -/
def parse? (text : String) : Option Time := do
  let (year, s) ← year? text.toList
  let (month, s) ← field? 1 12 (← mark? '-' s)
  let (day, s) ← field? 1 31 (← mark? '-' s)
  let (hour, s) ← field? 0 23 (← separator? s)
  let (minute, s) ← field? 0 59 (← mark? ':' s)
  let (second, s) ← field? 0 60 (← mark? ':' s)
  let (nanos, s) ← fraction? s
  let (ahead, s) ← offset? (skipBlanks s)
  if !(skipBlanks s).isEmpty then none
  else if year < minYear ∨ maxYear < year ∨ daysIn year month < day then none
  else
    let leap := second = 60
    let ofDay := hour * 3600 + minute * 60 + if leap then 59 else second
    let seconds := dayNumber year month day * 86400 + ofDay - ahead
    let (utcYear, _, _) := dateOf (seconds / 86400)
    if utcYear < minYear ∨ maxYear < utcYear then none
    else some ⟨seconds, if leap then nanos + 1000000000 else nanos⟩

end Time

end Muster
