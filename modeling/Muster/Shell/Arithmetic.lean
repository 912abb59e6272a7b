import Muster.Sorted
import Muster.Text.Decimal

/-!
# Arithmetic of scripts

Expressions over integers, with variables that can be assigned. They are evaluated while they are read, by
precedence.
-/

namespace Muster.Shell.Arithmetic

inductive Token
  | number (n : Int)
  | name (s : String)
  | sign (s : String)
  deriving DecidableEq, Repr

/-- The signs, the longer ones first. -/
def signs : List String :=
  ["**=", "<<=", ">>=", "**", "++", "--", "+=", "-=", "*=", "/=", "%=", "<<", ">>", "<=", ">=", "==", "!=",
    "&&", "||", "+", "-", "*", "/", "%", "<", ">", "=", "!", "~", "&", "|", "^", "(", ")", "?", ":", ","]

/-- The value of a number, which may be octal or hexadecimal. -/
def numberValue : List Char → Int
  | '0' :: x :: digits =>
    if x = 'x' || x = 'X' then digits.foldl (fun n c => n * 16 + ((Text.hexDigit? c).getD 0 : Nat)) 0
    else (x :: digits).foldl (fun n c => n * 8 + ((Text.digit? c).getD 0 : Nat)) 0
  | digits => Text.digitsValue 0 digits

def tokens : Nat → List Char → Option (List Token)
  | 0, _ => none
  | _ + 1, [] => some []
  | n + 1, c :: rest =>
    if c.isWhitespace then tokens n rest
    else if c.isDigit then
      let (digits, after) := (c :: rest).span Char.isAlphanum
      (tokens n after).map (.number (numberValue digits) :: ·)
    else if c.isAlpha || c = '_' then
      let (name, after) := (c :: rest).span fun c => c.isAlphanum || c = '_'
      (tokens n after).map (.name (String.ofList name) :: ·)
    else match signs.find? fun s => s.toList.isPrefixOf (c :: rest) with
      | some s => (tokens n ((c :: rest).drop s.length)).map (.sign s :: ·)
      | none => none

abbrev Vars := SortedMap String String

/-- The value of a variable; one that is not set, or is no number, counts as 0. -/
def valueOf (vars : Vars) (name : String) : Int :=
  ((vars.get? name).bind fun s => Text.integer? s.toList).getD 0

/-- How strongly an operator binds, and what it does. -/
def operator? : String → Option (Nat × (Int → Int → Option Int))
  | "||" => some (1, fun a b => some (if a ≠ 0 ∨ b ≠ 0 then 1 else 0))
  | "&&" => some (2, fun a b => some (if a ≠ 0 ∧ b ≠ 0 then 1 else 0))
  | "|" => some (3, fun a b => some (Int.ofNat (a.toNat ||| b.toNat)))
  | "^" => some (4, fun a b => some (Int.ofNat (a.toNat ^^^ b.toNat)))
  | "&" => some (5, fun a b => some (Int.ofNat (a.toNat &&& b.toNat)))
  | "==" => some (6, fun a b => some (if a = b then 1 else 0))
  | "!=" => some (6, fun a b => some (if a ≠ b then 1 else 0))
  | "<" => some (7, fun a b => some (if a < b then 1 else 0))
  | ">" => some (7, fun a b => some (if b < a then 1 else 0))
  | "<=" => some (7, fun a b => some (if a ≤ b then 1 else 0))
  | ">=" => some (7, fun a b => some (if b ≤ a then 1 else 0))
  | "<<" => some (8, fun a b => some (a * Nat.pow 2 b.toNat))
  | ">>" => some (8, fun a b => some (a >>> b.toNat))
  | "+" => some (9, fun a b => some (a + b))
  | "-" => some (9, fun a b => some (a - b))
  | "*" => some (10, fun a b => some (a * b))
  | "/" => some (10, fun a b => if b = 0 then none else some (a.tdiv b))
  | "%" => some (10, fun a b => if b = 0 then none else some (a.tmod b))
  | "**" => some (12, fun a b => if b < 0 then none else some (Int.pow a b.toNat))
  | _ => none

/-- A value with what is left to read and the variables after it. -/
abbrev Result := Option (Int × List Token × Vars)

def assign (vars : Vars) (name : String) (n : Int) : Vars := vars.insert name (toString n)

mutual

/-- An operand with the signs before it. -/
def operand (vars : Vars) : Nat → List Token → Result
  | 0, _ => none
  | n + 1, ts =>
    match ts with
    | .number k :: rest => some (k, rest, vars)
    | .sign "(" :: rest =>
      match sequence vars n rest with
      | some (v, .sign ")" :: rest, vars) => some (v, rest, vars)
      | _ => none
    | .sign "-" :: rest => (operand vars n rest).map fun (v, r) => (-v, r)
    | .sign "+" :: rest => operand vars n rest
    | .sign "!" :: rest => (operand vars n rest).map fun (v, r) => (if v = 0 then 1 else 0, r)
    | .sign "~" :: rest => (operand vars n rest).map fun (v, r) => (-v - 1, r)
    | .sign "++" :: .name x :: rest =>
      let v := valueOf vars x + 1
      some (v, rest, assign vars x v)
    | .sign "--" :: .name x :: rest =>
      let v := valueOf vars x - 1
      some (v, rest, assign vars x v)
    | .name x :: .sign "++" :: rest =>
      some (valueOf vars x, rest, assign vars x (valueOf vars x + 1))
    | .name x :: .sign "--" :: rest =>
      some (valueOf vars x, rest, assign vars x (valueOf vars x - 1))
    | .name x :: rest => some (valueOf vars x, rest, vars)
    | _ => none

/-- The operators that bind at least as strongly as `least`, behind a first value. -/
def operators (n : Nat) (least : Nat) (v : Int) (ts : List Token) (vars : Vars) : Result :=
  match n with
  | 0 => none
  | n + 1 =>
    match ts with
    | .sign s :: rest =>
      match operator? s with
      | none => some (v, ts, vars)
      | some (strength, f) =>
        if strength < least then some (v, ts, vars)
        else do
          let (w, rest, vars) ← operand vars n rest
          let (w, rest, vars) ← operators n (if s = "**" then strength else strength + 1) w rest vars
          let v ← f v w
          operators n least v rest vars
    | _ => some (v, ts, vars)

/-- An assignment, a choice between two values, or a value. -/
def value (vars : Vars) : Nat → List Token → Result
  | 0, _ => none
  | n + 1, ts =>
    match ts with
    | .name x :: .sign "=" :: rest => do
      let (v, rest, vars) ← value vars n rest
      return (v, rest, assign vars x v)
    | .name x :: .sign s :: rest =>
      match if s.endsWith "=" then operator? (s.dropEnd 1).toString else none with
      | some (strength, f) =>
        if strength < 8 && s ≠ "<<=" && s ≠ ">>=" then choice vars n ts
        else do
          let (w, rest, vars) ← value vars n rest
          let v ← f (valueOf vars x) w
          return (v, rest, assign vars x v)
      | none => choice vars n ts
    | _ => choice vars n ts

def choice (vars : Vars) : Nat → List Token → Result
  | 0, _ => none
  | n + 1, ts => do
    let (v, rest, vars) ← operand vars n ts
    let (v, rest, vars) ← operators n 1 v rest vars
    match rest with
    | .sign "?" :: rest =>
      let (a, rest, vars) ← value vars n rest
      match rest with
      | .sign ":" :: rest =>
        let (b, rest, vars) ← value vars n rest
        return (if v ≠ 0 then a else b, rest, vars)
      | _ => none
    | _ => return (v, rest, vars)

/-- Values with commas between them; the last one counts. -/
def sequence (vars : Vars) : Nat → List Token → Result
  | 0, _ => none
  | n + 1, ts => do
    let (v, rest, vars) ← value vars n ts
    match rest with
    | .sign "," :: rest => sequence vars n rest
    | _ => return (v, rest, vars)

end

/-- The value of an expression; an empty one is 0. -/
def evaluate (vars : Vars) (s : String) : Option (Int × Vars) := do
  let ts ← tokens (s.length + 1) s.toList
  if ts.isEmpty then return (0, vars)
  let (v, rest, vars) ← sequence vars (4 * ts.length + 8) ts
  if rest.isEmpty then return (v, vars) else none

end Muster.Shell.Arithmetic
