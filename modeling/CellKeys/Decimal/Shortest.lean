import CellKeys.Binary64.Basic

namespace CellKeys

/-- A positive decimal number: digits, without zeros at the end, times a power of ten. -/
structure Decimal where
  digits : Nat
  exponent : Int
  deriving DecidableEq, Repr

namespace Decimal

/-- Number of decimal digits. -/
def length (n : Nat) : Nat := (Nat.toDigits 10 n).length

/-- Drops zeros at the end of a positive number, at most this many. -/
def strip : Nat → Nat → Int → Decimal
  | 0, digits, exponent => ⟨digits, exponent⟩
  | count + 1, digits, exponent =>
    if digits % 10 = 0 then strip count (digits / 10) (exponent + 1) else ⟨digits, exponent⟩

/-- The exponent of the first decimal digit of a magnitude. -/
def order (units : Nat) : Int := (length (units * 10 ^ 400 / 2 ^ 1074) : Int) - 401

/-- The reals that round to a magnitude, in quarters of a unit. -/
structure Interval where
  low : Nat
  high : Nat
  /-- Whether the ends belong to the interval. -/
  closed : Bool

/-- The reals that round to a magnitude on a grid whose lines lie `step` units apart there. The gap
    below a power of two is half the gap above it, unless the grid is as fine as `finest`. The ends
    belong to the interval when the magnitude is an even multiple of the step. -/
def interval (units step finest : Nat) : Interval where
  low := 4 * units - if units = 2 ^ units.log2 ∧ finest < step then step else 2 * step
  high := 4 * units + 2 * step
  closed := units / step % 2 = 0

/-- Whether a multiple of `down` lies in the interval stretched by `up`. -/
def Interval.holds (i : Interval) (up down n : Nat) : Bool :=
  if i.closed then i.low * up ≤ n * down && n * down ≤ i.high * up
  else i.low * up < n * down && n * down < i.high * up

/-- The multiple of a power of ten in an interval that is nearest to a magnitude, if there is one.
    -/
def onGrid? (units : Nat) (i : Interval) (grid : Int) : Option Decimal :=
  let up := 10 ^ (-grid).toNat
  let down := 2 ^ 1076 * 10 ^ grid.toNat
  let floor := 4 * units * up / down
  let rest := 2 * (4 * units * up % down)
  let preferFloor := rest < down || rest == down && floor % 2 == 0
  if i.holds up down floor && (preferFloor || !i.holds up down (floor + 1)) then some ⟨floor, grid⟩
  else if i.holds up down (floor + 1) then some ⟨floor + 1, grid⟩
  else none

/-- The shortest decimal in an interval around a positive magnitude. Seventeen digits always suffice
    for the intervals here; the exact decimal expansion stands behind them. -/
def shortestIn (units : Nat) (i : Interval) : Decimal :=
  let exact : Decimal := ⟨units * 5 ^ 1074, -1074⟩
  let best := (List.range 17).findSome? fun (n : Nat) => onGrid? units i (order units - (n : Int))
  let chosen := best.getD exact
  strip (length chosen.digits) chosen.digits chosen.exponent

/-- The shortest decimal for a positive magnitude. -/
def shortest (units : Nat) : Decimal :=
  shortestIn units (interval units (2 ^ Binary64.spacing units) 1)

/-- The shortest decimal for a positive magnitude of single precision. -/
def shortestSingle (units : Nat) : Decimal :=
  shortestIn units (interval units (2 ^ max (units.log2 - 23) 925) (2 ^ 925))

end Decimal

end CellKeys
