import Muster.Json.Basic
import Muster.Text.Decimal

/-!
# Reading documents

A reader of JSON texts. It gives what a text spells, and leaves open whether every part of it has a
value.
-/

namespace Muster.Json.Reader

open Text (isDigit digitsValue hexDigit?)

def isSpace (c : Char) : Bool := c = ' ' || c = '\n' || c = '\t' || c = '\r'

def skip (s : List Char) : List Char := s.dropWhile isSpace

/-! ### Numbers -/

/-- Takes digits onto `n` as long as 64 bits hold the number. -/
def takeDigits (n : Nat) : List Char → Nat × List Char
  | [] => (n, [])
  | c :: rest =>
    match Text.digit? c with
    | some d => if n * 10 + d < Width.count64 then takeDigits (n * 10 + d) rest else (n, c :: rest)
    | none => (n, c :: rest)

/-- A power of ten of more than nine digits is as good as none or all. -/
def power (negative : Bool) (digits : List Char) : Option Int :=
  let n := digitsValue 0 digits
  if n ≤ Width.greatest32 then some (if negative then -(n : Int) else n) else none

/-- The rest of a number after its significand: the power of ten, if one is given. -/
def powered (negative : Bool) (significand : Nat) (exponent : Int) :
    List Char → Option (Option Number × List Char)
  | c :: rest =>
    if c = 'e' || c = 'E' then
      let (down, rest) := match rest with
        | '-' :: rest => (true, rest)
        | '+' :: rest => (false, rest)
        | rest => (false, rest)
      let digits := rest.takeWhile isDigit
      if digits.isEmpty then none
      else
        let value := match power down digits with
          | some n => Real.ofDecimal? negative significand (exponent + n)
          | none => if significand ≠ 0 ∧ ¬ down then none else some (Real.zero negative)
        some (value.map .real, rest.drop digits.length)
    else some ((Real.ofDecimal? negative significand exponent).map .real, c :: rest)
  | [] => some ((Real.ofDecimal? negative significand exponent).map .real, [])

/-- The digits after the point. Those that 64 bits cannot hold are passed over. -/
def fraction (negative : Bool) (significand : Nat) (exponent : Int) (s : List Char) :
    Option (Option Number × List Char) :=
  let digits := s.takeWhile isDigit
  if digits.isEmpty then none
  else
    let (significand, left) := takeDigits significand digits
    powered negative significand (exponent - (digits.length - left.length : Nat))
      (s.drop digits.length)

/-- What follows the digits of the whole part; `dropped` of them are not in the significand. -/
def afterWhole (negative : Bool) (significand dropped : Nat) (s : List Char) :
    Option (Option Number × List Char) :=
  match s with
  | '.' :: rest => fraction negative significand dropped rest
  | 'e' :: _ | 'E' :: _ => powered negative significand dropped s
  | _ =>
    if dropped ≠ 0 then powered negative significand dropped s
    else if !negative then some (some (.whole significand), s)
    else if significand = 0 ∨ -Width.least64 < significand then powered true significand 0 s
    else some (some (.whole (-(significand : Int))), s)

/-- A number without its sign. A zero at the front stands alone. -/
def unsigned (negative : Bool) (s : List Char) : Option (Option Number × List Char) :=
  let digits := s.takeWhile isDigit
  match digits with
  | [] => none
  | '0' :: _ :: _ => none
  | _ =>
    let (significand, left) := takeDigits 0 digits
    afterWhole negative significand left.length (s.drop digits.length)

def number : List Char → Option (Option Number × List Char)
  | '-' :: rest => unsigned true rest
  | s => unsigned false s

/-! ### Strings -/

def hex4? (a b c d : Char) : Option Nat := do
  return (((← hexDigit? a) * 16 + (← hexDigit? b)) * 16 + (← hexDigit? c)) * 16 + (← hexDigit? d)

/-- The character that stands for itself behind a backslash. -/
def escaped? : Char → Option Char
  | '"' => some '"'
  | '\\' => some '\\'
  | '/' => some '/'
  | 'b' => some '\x08'
  | 'f' => some '\x0c'
  | 'n' => some '\n'
  | 'r' => some '\r'
  | 't' => some '\t'
  | _ => none

/-- A unit of a string: a character, or half of a surrogate pair. -/
abbrev Units := List (Char ⊕ Nat)

/-- Joins the halves of surrogate pairs; a half that stands alone leaves no value. -/
def joined? : Units → Option (List Char)
  | [] => some []
  | .inl c :: rest => (joined? rest).map (c :: ·)
  | .inr high :: .inr low :: rest =>
    if high < 0xDC00 ∧ 0xDC00 ≤ low then
      (joined? rest).map (Char.ofNat (0x10000 + (high - 0xD800) * 0x400 + (low - 0xDC00)) :: ·)
    else none
  | .inr _ :: _ => none

def unit (n : Nat) : Char ⊕ Nat :=
  if 0xD800 ≤ n ∧ n < 0xE000 then .inr n else .inl (Char.ofNat n)

/-- The units up to the closing quote. -/
def units : List Char → Option (Units × List Char)
  | [] => none
  | '"' :: rest => some ([], rest)
  | '\\' :: 'u' :: a :: b :: c :: d :: rest =>
    match hex4? a b c d, units rest with
    | some n, some (more, after) => some (unit n :: more, after)
    | _, _ => none
  | '\\' :: e :: rest =>
    match escaped? e, units rest with
    | some c, some (more, after) => some (.inl c :: more, after)
    | _, _ => none
  | c :: rest =>
    if c.toNat < 32 || c = '\\' then none
    else (units rest).map fun (more, after) => (.inl c :: more, after)

def string (s : List Char) : Option (Option String × List Char) :=
  (units s).map fun (found, after) => ((joined? found).map String.ofList, after)

/-! ### Values -/

mutual

def value : Nat → List Char → Option (Spelled × List Char)
  | 0, _ => none
  | fuel + 1, s =>
    match skip s with
    | '{' :: rest =>
      match skip rest with
      | '}' :: rest => some (.object [], rest)
      | rest => (members fuel rest).map fun (l, rest) => (.object l, rest)
    | '[' :: rest =>
      match skip rest with
      | ']' :: rest => some (.array [], rest)
      | rest => (items fuel rest).map fun (l, rest) => (.array l, rest)
    | '"' :: rest => (string rest).map fun (s, rest) => (.string s, rest)
    | 't' :: 'r' :: 'u' :: 'e' :: rest => some (.bool true, rest)
    | 'f' :: 'a' :: 'l' :: 's' :: 'e' :: rest => some (.bool false, rest)
    | 'n' :: 'u' :: 'l' :: 'l' :: rest => some (.null, rest)
    | s => (number s).map fun (n, rest) => (.number n, rest)

/-- One item or more, and the closing bracket. -/
def items : Nat → List Char → Option (List Spelled × List Char)
  | 0, _ => none
  | fuel + 1, s => do
    let (item, s) ← value fuel s
    match skip s with
    | ',' :: rest => (items fuel rest).map fun (l, rest) => (item :: l, rest)
    | ']' :: rest => some ([item], rest)
    | _ => none

/-- One member or more, and the closing brace. -/
def members : Nat → List Char → Option (List (Option String × Spelled) × List Char)
  | 0, _ => none
  | fuel + 1, s =>
    match skip s with
    | '"' :: rest => do
      let (name, s) ← string rest
      match skip s with
      | ':' :: rest =>
        let (item, s) ← value fuel rest
        match skip s with
        | ',' :: rest => (members fuel rest).map fun (l, rest) => ((name, item) :: l, rest)
        | '}' :: rest => some ([(name, item)], rest)
        | _ => none
      | _ => none
    | _ => none

end

end Reader

namespace Spelled

/-- What a whole text spells. Each call of the reader takes a character, so the length is fuel
enough. -/
def ofText? (text : String) : Option Spelled :=
  let s := text.toList
  match Reader.value (s.length + 1) s with
  | some (v, rest) => if (Reader.skip rest).isEmpty then some v else none
  | none => none

end Spelled

/-- The value of a text. -/
def ofText? (text : String) : Option Json := (Spelled.ofText? text).bind (Spelled.value? maxDepth)

end Muster.Json
