/-!
# Real numbers in documents

Binary64 numbers by their bits: the value of a significand and a power of ten, and the shortest decimal
that reads back. Reading rounds twice, first the significand and then its product with the power.
-/

namespace Muster.Json

/-- A binary64 number, given by its bits so that equality is that of the bits. -/
structure Real where
  bits : UInt64
  deriving DecidableEq, Repr

namespace Real

def ofFloat (x : Float) : Real := ⟨x.toBits⟩

private def power (k : Nat) : Float := Float.ofScientific 1 false k

/-- `x` divided by ten to the power `k`, by at most 308 powers at a time. -/
private def divided (x : Float) (k : Nat) : Float :=
  if k ≤ 308 then x / power k
  else if x == 0 then x else divided (x / power 308) (k - 308)
termination_by k

/-- `significand · 10 ^ exponent`, unless it is too large. -/
def ofDecimal? (negative : Bool) (significand : Nat) (exponent : Int) : Option Real :=
  let x := significand.toUInt64.toFloat
  let value :=
    if exponent < 0 then some (divided x exponent.natAbs)
    else if exponent ≤ 308 then some (x * power exponent.toNat)
    else if significand = 0 then some x else none
  (value.filter fun y => !y.isInf).map fun y => ofFloat (if negative then -y else y)

def zero (negative : Bool) : Real := ⟨if negative then 0x8000000000000000 else 0⟩

def isNegative (x : Real) : Bool := x.bits >>> 63 = 1

/-- The bit in front of the others of a significand, `2 ^ 52`. -/
def leading : Nat := 4503599627370496

/-- `m` and `e` with the size of the number equal to `m · 2 ^ (e - 1074)`. -/
def parts (x : Real) : Nat × Nat :=
  let field := (x.bits >>> 52 &&& 0x7FF).toNat
  let low := (x.bits &&& 0xFFFFFFFFFFFFF).toNat
  if field = 0 then (low, 0) else (low + leading, field - 1)

/-- A number with its bounds: what lies between them, ends included where `closed`, reads back. All
three are counted in units of `1 / unit`. -/
structure Interval where
  low : Nat
  value : Nat
  high : Nat
  unit : Nat
  closed : Bool

/-- Half way to the neighbours; below a power of two the neighbour is nearer. -/
def interval (x : Real) : Interval :=
  let (m, e) := x.parts
  let scale := Nat.pow 2 e
  let low := if m = leading ∧ 0 < e then 4 * m - 1 else 4 * m - 2
  ⟨low * scale, 4 * m * scale, (4 * m + 2) * scale, 4 * Nat.pow 2 1074, m % 2 = 0⟩

def Interval.holds (i : Interval) (n : Nat) : Bool :=
  if i.closed then i.low ≤ n && n ≤ i.high else i.low < n && n < i.high

/-- A decimal `digits · 10 ^ exponent`. -/
structure Decimal where
  digits : Nat
  exponent : Int
  deriving DecidableEq, Repr

/-- The multiple of `10 ^ exponent` nearest to the value that reads back, ties to the even one. -/
def Interval.nearest? (i : Interval) (exponent : Int) : Option Decimal :=
  let up := Nat.pow 10 (-exponent).toNat
  let step := Nat.pow 10 exponent.toNat * i.unit
  let scaled : Interval := ⟨i.low * up, i.value * up, i.high * up, i.unit, i.closed⟩
  let below := scaled.value / step
  let above := below + 1
  let toBelow := scaled.value - below * step
  let toAbove := above * step - scaled.value
  let belowHolds := 0 < below && scaled.holds (below * step)
  let aboveHolds := scaled.holds (above * step)
  let chosen :=
    if belowHolds && aboveHolds then
      some (if toBelow < toAbove || (toBelow = toAbove && below % 2 = 0) then below else above)
    else if belowHolds then some below
    else if aboveHolds then some above
    else none
  chosen.map fun n => ⟨n, exponent⟩

/-- The first grid of decimals, from the coarsest on, with one that reads back. -/
def Interval.search (i : Interval) (exponent : Int) : Nat → Decimal
  | 0 => ⟨0, 0⟩
  | fuel + 1 => (i.nearest? exponent).getD (i.search (exponent - 1) fuel)

/-- The decimal with fewest digits that reads back, and of those the nearest. Every binary64 number
lies below `10 ^ 309` and is met on the grid of `10 ^ -324` at the latest. -/
def shortest (x : Real) : Decimal := x.interval.search 309 640

/-- The digits, with a point where the size allows one, and else in powers of ten: whole numbers are
written out below `10 ^ 16`, and fractions down to five places. -/
def text (x : Real) : String :=
  let sign := if x.isNegative then "-" else ""
  if x.parts.1 = 0 then sign ++ "0.0"
  else
    let d := x.shortest
    let digits := toString d.digits
    let point : Int := digits.length + d.exponent
    let body :=
      if 0 ≤ d.exponent ∧ point ≤ 16 then digits.pushn '0' d.exponent.toNat ++ ".0"
      else if 0 < point ∧ point ≤ 16 then
        (digits.take point.toNat).toString ++ "." ++ (digits.drop point.toNat).toString
      else if -5 < point ∧ point ≤ 0 then "0.".pushn '0' (-point).toNat ++ digits
      else
        let exponent := "e" ++ toString (point - 1)
        if digits.length = 1 then digits ++ exponent
        else (digits.take 1).toString ++ "." ++ (digits.drop 1).toString ++ exponent
    sign ++ body

end Real

end Muster.Json
