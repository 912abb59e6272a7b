import Muster.Shell.Script
import Muster.Text.Decimal

/-!
# From words to fields

Braces are taken apart before anything else is done to a word; what its parts expand to is cut at blanks
where it is not quoted.
-/

namespace Muster.Shell

/-! ### Braces -/

/-- A character of a word that may have a meaning, or a part that has none. -/
inductive Atom
  | char (c : Char)
  | part (p : Part)

namespace Atom

def char? : Atom → Option Char
  | char c => some c
  | part _ => none

def ofWord (w : Word) : List Atom :=
  w.flatMap fun part => match part with
    | .text s => s.toList.map char
    | part => [.part part]

def toWord : List Atom → Word
  | [] => []
  | char c :: rest =>
    match toWord rest with
    | .text s :: parts => .text (c.toString ++ s) :: parts
    | parts => .text c.toString :: parts
  | part p :: rest => p :: toWord rest

end Atom

namespace Braces

/-- The pieces of what stands between braces, at its commas, and what follows the closing brace. -/
def inner (depth : Nat) (piece : List Atom) (pieces : List (List Atom)) :
    List Atom → Option (List (List Atom) × List Atom)
  | [] => none
  | a :: rest =>
    match a.char?, depth with
    | some '\x7d', 0 => some ((piece.reverse :: pieces).reverse, rest)
    | some ',', 0 => inner 0 [] (piece.reverse :: pieces) rest
    | some '\x7d', depth + 1 => inner depth (a :: piece) pieces rest
    | some '\x7b', depth => inner (depth + 1) (a :: piece) pieces rest
    | _, depth => inner depth (a :: piece) pieces rest

/-- The numbers from one to another, each `step` away from the one before. -/
def count (first last step : Int) : List Int :=
  let step : Int := if step = 0 then 1 else step.natAbs
  let n := ((last - first).natAbs / step.natAbs) + 1
  (List.range n).map fun (i : Nat) => if first ≤ last then first + i * step else first - i * step

/-- How wide the numbers of a sequence are, if one of its ends is written with a leading zero. -/
def width (first last : List Char) : Nat :=
  let isPadded (s : List Char) : Bool :=
    match s.dropWhile (· = '-') with
    | '0' :: _ :: _ => true
    | _ => false
  if isPadded first || isPadded last then max first.length last.length else 0

/-- A number with zeros before it up to a width. -/
def padded (width : Nat) (n : Int) : String :=
  let digits := toString n.natAbs
  let sign := if n < 0 then "-" else ""
  sign ++ "".pushn '0' (width - sign.length - digits.length) ++ digits

/-- A sequence, `first..last` with an optional step. -/
def sequence? (atoms : List Atom) : Option (List String) := do
  let s ← atoms.mapM Atom.char?
  let pieces := (String.ofList s).splitOn ".."
  let (first, last, step) ← match pieces with
    | [first, last] => some (first, last, (1 : Int))
    | [first, last, step] => (Text.integer? step.toList).map fun n => (first, last, n)
    | _ => none
  match Text.integer? first.toList, Text.integer? last.toList, first.toList, last.toList with
  | some a, some b, _, _ =>
    some ((count a b step).map (padded (width first.toList last.toList)))
  | none, none, [a], [b] =>
    some ((count a.toNat b.toNat step).map fun n => (Char.ofNat n.toNat).toString)
  | _, _, _, _ => none

/-- Every word that a word with braces stands for. -/
def expand : Nat → List Atom → List (List Atom)
  | 0, w => [w]
  | _ + 1, [] => [[]]
  | n + 1, a :: rest =>
    let plain := (expand n rest).map (a :: ·)
    if a.char? ≠ some '\x7b' then plain
    else match inner 0 [] [] rest with
      | none => plain
      | some (pieces, after) =>
        let ends := expand n after
        match pieces, pieces.head?.bind sequence? with
        | [_], some values =>
          values.flatMap fun v => ends.map fun e => v.toList.map Atom.char ++ e
        | [_], none => plain
        | pieces, _ =>
          (pieces.flatMap (expand n)).flatMap fun p => ends.map fun e => p ++ e

/-- The words that a word stands for, without braces. -/
def words (w : Word) : List Word :=
  let atoms := Atom.ofWord w
  if atoms.any fun a => a.char? = some '\x7b' then
    (expand (atoms.length + 1) atoms).map Atom.toWord
  else [w]

end Braces

/-! ### Fields -/

/-- A piece of an expanded word. -/
inductive Piece
  /-- A text that stays whole. -/
  | hard (s : String)
  /-- A text that is cut at blanks. -/
  | soft (s : String)
  /-- The end of one argument of several. -/
  | cut

namespace Fields

def isBlank (c : Char) : Bool := c = ' ' || c = '\t' || c = '\n'

/-- The fields so far, in reverse, and the one that is being put together. -/
structure Row where
  done : List String := []
  current : Option String := none

def Row.add (r : Row) (s : String) : Row := { r with current := some (r.current.getD "" ++ s) }

def Row.finish (r : Row) : Row :=
  match r.current with
  | some s => { done := s :: r.done }
  | none => r

/-- Adds a text that is cut at blanks. -/
def addSoft (r : Row) : List Char → Row
  | [] => r
  | c :: rest => addSoft (if isBlank c then r.finish else r.add c.toString) rest

def addPiece (r : Row) : Piece → Row
  | .hard s => r.add s
  | .soft s => if s.toList.any isBlank then addSoft r s.toList else if s = "" then r else r.add s
  | .cut => { r.finish with current := none }

/-- The fields that the pieces make. -/
def ofPieces (pieces : List Piece) : List String := (pieces.foldl addPiece {}).finish.done.reverse

/-- The text that the pieces make where nothing is cut. -/
def joined (pieces : List Piece) : String :=
  pieces.foldl (fun s piece => match piece with
    | .hard t | .soft t => s ++ t
    | .cut => s ++ " ") ""

end Fields

end Muster.Shell
