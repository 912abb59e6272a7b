import Muster.Text.Decimal
import Muster.Text.Split

/-!
# Sweeps

One command for many nodes, with a number of its own for each: `p{b-e,s}` puts the walk `b, b + s, …` to
`e`, and from `b` again, in the place of `p`. The end and the step can be left out. Any other text is a
placeholder for which nothing is put.
-/

namespace Muster

structure Sweep where
  placeholder : String
  /-- A number for each node, if the sweep has a walk. -/
  values : Option (List Int)
  deriving DecidableEq, Repr

namespace Sweep

/-- Numbers in equal steps; without an end as far as 64 bits go. -/
structure Walk where
  first : Int
  last : Option Int
  step : Int
  deriving DecidableEq, Repr

def fits64 (n : Int) : Bool := Width.least64 ≤ n && n ≤ Width.greatest64

/-- The walk moves, and not away from its end. -/
def Walk.isSound (w : Walk) : Bool :=
  w.step != 0 && match w.last with
    | none => true
    | some last => !(w.first < last && w.step < 0) && !(last < w.first && 0 < w.step)

def Walk.passes (w : Walk) (n : Int) : Bool :=
  match w.last with
  | none => false
  | some last => if 0 < w.step then last < n else n < last

/-- The number after `n`, which is the first one where the walk ends. -/
def Walk.next (w : Walk) (n : Int) : Int :=
  if fits64 (n + w.step) && !w.passes (n + w.step) then n + w.step else w.first

def Walk.from (w : Walk) (n : Int) : Nat → List Int
  | 0 => []
  | count + 1 => n :: w.from (w.next n) count

/-- The first `count` numbers. -/
def Walk.values (w : Walk) (count : Nat) : List Int := w.from w.first count

/-- A number with an optional minus sign, and what follows it. -/
def takeNumber? (s : List Char) : Option (List Char × List Char) :=
  let (sign, rest) := match s with
    | '-' :: rest => (['-'], rest)
    | rest => ([], rest)
  let digits := rest.takeWhile Text.isDigit
  if digits.isEmpty then none else some (sign ++ digits, rest.drop digits.length)

/-- The ends of `b` or `b-e`. -/
def readEnds? (s : List Char) : Option (Int × Option Int) := do
  let (first, rest) ← takeNumber? s
  let first ← Text.int64? first
  match rest with
  | [] => return (first, none)
  | '-' :: rest =>
    let (last, rest) ← takeNumber? rest
    if !rest.isEmpty then none else return (first, some (← Text.int64? last))
  | _ => none

def defaultStep (first : Int) : Option Int → Int
  | some last => if last < first then -1 else 1
  | none => 1

/-- The walk that is written between the braces. -/
def readWalk? (s : List Char) : Option Walk := do
  let (ends, step) := match Text.splitOnce? ',' s with
    | some (ends, step) => (ends, some step)
    | none => (s, none)
  let (first, last) ← readEnds? ends
  let step ← match step with
    | some step => Text.int64? step
    | none => some (defaultStep first last)
  let walk : Walk := ⟨first, last, step⟩
  if walk.isSound then some walk else none

/-- The placeholder and what stands between the last brace and the one that closes it. -/
def parts? (s : List Char) : Option (List Char × List Char) :=
  match s.reverse with
  | '\x7d' :: rest =>
    (Text.splitOnce? '\x7b' rest).bind fun (body, before) =>
      if before.isEmpty || before.contains '\n' then none else some (before.reverse, body.reverse)
  | _ => none

/-- The placeholder and walk of a sweep that has both. -/
def read? (s : List Char) : Option (List Char × Walk) := do
  let (placeholder, body) ← parts? s
  return (placeholder, ← readWalk? body)

/-- The sweep that a text spells, with numbers for `count` nodes. -/
def parse (text : String) (count : Nat) : Sweep :=
  match read? text.toList with
  | some (placeholder, walk) => ⟨String.ofList placeholder, some (walk.values count)⟩
  | none => ⟨text, none⟩

/-- Puts the number of node `index` in the place of the placeholder. -/
def apply (sweep : Sweep) (text : String) (index : Nat) : String :=
  match sweep.values.bind (·[index]?) with
  | some value => Text.replaceAll sweep.placeholder (toString value) text
  | none => text

end Sweep

end Muster
