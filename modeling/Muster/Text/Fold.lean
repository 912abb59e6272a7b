import Muster.Text.FoldTable

/-!
# Case folding

Characters that differ only by case fold to the same one.
-/

namespace Muster.Text

namespace Fold

def Run.covers (r : Run) (n : Int) : Bool :=
  r.first ≤ n && n ≤ r.last && (n - r.first) % r.step = 0

def find (n : Nat) : Nat :=
  match runs.find? fun r => r.covers n with
  | some r => (n + r.shift).toNat
  | none => n

end Fold

/-- What a character folds to. -/
def fold (c : Char) : Char :=
  if c.toNat < 128 then c.toLower else Char.ofNat (Fold.find c.toNat)

/-- All characters that fold to the same one as `c`. -/
def caseVariants (c : Char) : List Char :=
  let target := fold c
  let others := Fold.runs.filterMap fun r =>
    let n : Int := target.toNat - r.shift
    if r.covers n then some (Char.ofNat n.toNat) else none
  target :: others

end Muster.Text
