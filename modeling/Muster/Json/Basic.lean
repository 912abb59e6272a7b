import Muster.Json.Real
import Muster.Sorted
import Muster.Width

/-!
# Documents

Values of JSON documents, and what a text of one spells: there a member may be repeated, and a number or
a string may have no value, being out of range or holding half of a surrogate pair. A value keeps the
members of an object sorted; the last of a repeated member counts.
-/

namespace Muster

/-- A whole number of 64 bits, with or without sign, or a real one. -/
inductive Json.Number
  | whole (n : Int)
  | real (x : Json.Real)
  deriving DecidableEq, Repr

inductive Json
  | null
  | bool (b : Bool)
  | number (n : Json.Number)
  | string (s : String)
  | array (items : List Json)
  | object (members : List (String × Json))
  deriving Repr, Inhabited

namespace Json

/-- What a text spells. -/
inductive Spelled
  | null
  | bool (b : Bool)
  | number (n : Option Number)
  | string (s : Option String)
  | array (items : List Spelled)
  | object (members : List (Option String × Spelled))
  deriving Repr, Inhabited

abbrev Members := List (String × Json)

def whole (n : Int) : Json := .number (.whole n)

def strings (l : List String) : Json := .array (l.map .string)

/-- The members in sorted order, the last of each name. -/
def sorted (members : Members) : Members :=
  members.foldl (fun m e => Sorted.put e.1 e.2 m) []

def asString? : Json → Option String
  | .string s => some s
  | _ => none

mutual

/-- What a value is spelled as. -/
def spelled : Json → Spelled
  | .null => .null
  | .bool b => .bool b
  | .number n => .number (some n)
  | .string s => .string (some s)
  | .array items => .array (spelledItems items)
  | .object members => .object (spelledMembers members)

def spelledItems : List Json → List Spelled
  | [] => []
  | item :: rest => item.spelled :: spelledItems rest

def spelledMembers : List (String × Json) → List (Option String × Spelled)
  | [] => []
  | (name, value) :: rest => (some name, value.spelled) :: spelledMembers rest

end

/-- How deep arrays and objects may be nested in each other. -/
def maxDepth : Nat := 127

namespace Spelled

mutual

/-- The value that is spelled, unless a part of it has none or `depth` levels are not enough. -/
def value? (depth : Nat) : Spelled → Option Json
  | .null => some .null
  | .bool b => some (.bool b)
  | .number n => n.map Json.number
  | .string s => s.map Json.string
  | .array items =>
    match depth with
    | 0 => none
    | depth + 1 => (values? depth items).map Json.array
  | .object members =>
    match depth with
    | 0 => none
    | depth + 1 => (namedValues? depth members).map fun l => Json.object (sorted l)

def values? (depth : Nat) : List Spelled → Option (List Json)
  | [] => some []
  | item :: rest => do return (← value? depth item) :: (← values? depth rest)

def namedValues? (depth : Nat) : List (Option String × Spelled) → Option Members
  | [] => some []
  | (name, value) :: rest => do
    return (← name, ← value? depth value) :: (← namedValues? depth rest)

end

/-! ### Readings as a given type -/

def text? : Spelled → Option String
  | .string s => s
  | _ => none

def wholeWithin? (lo hi : Int) : Spelled → Option Int
  | .number (some (.whole n)) => if lo ≤ n ∧ n ≤ hi then some n else none
  | _ => none

def int32? : Spelled → Option Int := wholeWithin? Width.least32 Width.greatest32

def list? {α : Type} (item? : Spelled → Option α) : Spelled → Option (List α)
  | .array items => items.mapM item?
  | _ => none

/-- An object with members of one type; the last of a repeated member counts. -/
def map? {α : Type} (item? : Spelled → Option α) : Spelled → Option (SortedMap String α)
  | .object members => do
    let l ← members.mapM fun (name, value) => do return (← name, ← item? value)
    return SortedMap.ofList l
  | _ => none

/-- The values of the fields `names`, in that order. An object may leave fields out, may have others
and must not repeat one; an array gives the fields in order and may end early. -/
def fields? (names : List String) : Spelled → Option (List (Option Spelled))
  | .object members => do
    let named ← members.mapM fun (name, value) => do return (← name, value)
    if names.any fun name => 1 < (named.filter fun e => e.1 == name).length then none
    else some (names.map fun name => named.lookup name)
  | .array items =>
    if names.length < items.length then none
    else some (items.map some ++ List.replicate (names.length - items.length) none)
  | _ => none

end Spelled

end Json

end Muster
