import Muster.Json.Basic

/-!
# Writing documents

The text of a JSON value on one line, and over several lines with an indentation of two.
-/

namespace Muster.Json

namespace Writer

private def hexDigit (n : Nat) : Char := (Nat.toDigits 16 n).headD '0'

/-- Quotes, backslashes and controls are escaped, and nothing else. -/
def escape (c : Char) : List Char :=
  if c = '"' then ['\\', '"']
  else if c = '\\' then ['\\', '\\']
  else if c = '\n' then ['\\', 'n']
  else if c = '\r' then ['\\', 'r']
  else if c = '\t' then ['\\', 't']
  else if c = '\x08' then ['\\', 'b']
  else if c = '\x0c' then ['\\', 'f']
  else if c.toNat < 32 then ['\\', 'u', '0', '0', hexDigit (c.toNat / 16), hexDigit (c.toNat % 16)]
  else [c]

def string (s : String) : String := String.ofList ('"' :: s.toList.flatMap escape ++ ['"'])

def number : Number → String
  | .whole n => toString n
  | .real x => x.text

/-- Where the parts of an array or object are put. -/
structure Layout where
  lines : Bool

def Layout.newLine (l : Layout) (depth : Nat) : String :=
  if l.lines then "\n".pushn ' ' (2 * depth) else ""

mutual

def value (l : Layout) (depth : Nat) : Json → String
  | .null => "null"
  | .bool b => if b then "true" else "false"
  | .number n => number n
  | .string s => string s
  | .array [] => "[]"
  | .array items => "[" ++ itemList l (depth + 1) items ++ l.newLine depth ++ "]"
  | .object [] => "\x7b\x7d"
  | .object members => "\x7b" ++ memberList l (depth + 1) members ++ l.newLine depth ++ "\x7d"

def itemList (l : Layout) (depth : Nat) : List Json → String
  | [] => ""
  | [item] => l.newLine depth ++ value l depth item
  | item :: rest => l.newLine depth ++ value l depth item ++ "," ++ itemList l depth rest

def memberList (l : Layout) (depth : Nat) : Members → String
  | [] => ""
  | [(name, item)] => l.newLine depth ++ named l depth name item
  | (name, item) :: rest =>
    l.newLine depth ++ named l depth name item ++ "," ++ memberList l depth rest

def named (l : Layout) (depth : Nat) (name : String) (item : Json) : String :=
  string name ++ (if l.lines then ": " else ":") ++ value l depth item

end

end Writer

/-- The text on one line, without blanks. -/
def compact (v : Json) : String := Writer.value ⟨false⟩ 0 v

/-- The text over several lines. -/
def pretty (v : Json) : String := Writer.value ⟨true⟩ 0 v

end Muster.Json
