import CellKeys.Binary64.Arithmetic
import CellKeys.Decimal.Layout

namespace CellKeys

/-- Choices in the layout of a column, and the widths that its numbers need. -/
structure Column where
  /-- Whether the digits only have to tell single-precision numbers apart. -/
  single : Bool
  /-- Whether the numbers have exponents. -/
  scientific : Bool
  /-- Number of characters before the point. -/
  whole : Nat
  /-- Number of characters after the point, before an exponent. -/
  decimals : Nat
  exponentDigits : Nat

/-- The digits of a number before and after its point, and its exponent. -/
structure DecimalParts where
  whole : List Char
  decimals : List Char
  exponent : Int

namespace Decimal

/-- The greatest number of digits after a point in a column. -/
def columnPlaces : Nat := 8

/-- A decimal for a magnitude that has no digits below a grid: the shortest one, or the nearest one
    on the grid. -/
def onGrid (shortest : Decimal) (units : Nat) (grid : Int) : Decimal :=
  if grid ≤ shortest.exponent then shortest
  else
    let digits := Binary64.nearestEven (units * 10 ^ (-grid).toNat)
      (Binary64.unitsPerOne * 10 ^ grid.toNat)
    if digits = 0 then ⟨0, 0⟩ else strip (length digits) digits grid

/-- The exponent of the first digit. -/
def firstExponent (d : Decimal) : Int := d.exponent + length d.digits - 1

/-- The parts of a decimal without an exponent. -/
def positionalParts (d : Decimal) : DecimalParts :=
  let digits := Nat.toDigits 10 d.digits
  let places := (-d.exponent).toNat
  let padded := List.replicate (places + 1 - digits.length) '0' ++ digits ++
    List.replicate d.exponent.toNat '0'
  ⟨padded.take (padded.length - places), padded.drop (padded.length - places), 0⟩

/-- The parts of a decimal with an exponent. -/
def scientificParts (d : Decimal) : DecimalParts :=
  let digits := Nat.toDigits 10 d.digits
  ⟨digits.take 1, digits.drop 1, if d.digits = 0 then 0 else d.firstExponent⟩

end Decimal

namespace Column

/-- The parts of a finite number in a column, with its sign before the point. -/
def parts (single scientific negative : Bool) (units : Nat) : DecimalParts :=
  let shortest : Decimal := if units = 0 then ⟨0, 0⟩
    else if single then .shortestSingle units else .shortest units
  let parts :=
    if scientific then
      (shortest.onGrid units (shortest.firstExponent - Decimal.columnPlaces)).scientificParts
    else (shortest.onGrid units (-Decimal.columnPlaces)).positionalParts
  { parts with whole := if negative then '-' :: parts.whole else parts.whole }

/-- The digits of an exponent, at least two. -/
def exponentText (n : Int) : List Char :=
  let digits := Nat.toDigits 10 n.natAbs
  List.replicate (2 - digits.length) '0' ++ digits

/-- Number of characters from the point on. -/
def afterWhole (c : Column) : Nat :=
  1 + c.decimals + if c.scientific then 2 + c.exponentDigits else 0

/-- Whether a column with these magnitudes needs exponents: if a number is large or small, or the
    greatest one is more than a thousand times the least. -/
def needsExponents (single : Bool) (magnitudes : List Binary64) : Bool :=
  let rounded := fun x : Binary64 => if single then x.toSingle else x
  match magnitudes with
  | [] => false
  | x :: xs =>
    let greatest := xs.foldl (fun a b => if a.lt b then b else a) x
    let least := xs.foldl (fun a b => if b.lt a then b else a) x
    (Binary64.ofInt (10 ^ (if single then 6 else 8))).le greatest ||
      least.lt (rounded (.ofRat (1 / 10000))) ||
      (Binary64.ofInt 1000).lt (rounded (greatest.div least))

/-- The column for these numbers. -/
def ofValues (single : Bool) (xs : List Binary64) : Column :=
  let finite := xs.filter Binary64.isFinite
  let magnitudes := finite.filterMap fun x =>
    if x.isZero then none else some (if x.isNegative then x.neg else x)
  let scientific := needsExponents single magnitudes
  let allParts := finite.map fun
    | .finite negative units _ => parts single scientific negative units
    | _ => ⟨[], [], 0⟩
  let greatest := fun f : DecimalParts → Nat => (allParts.map f).foldl max 0
  let c : Column := ⟨single, scientific, greatest (·.whole.length), greatest (·.decimals.length),
    greatest (fun p => (exponentText p.exponent).length)⟩
  let words := xs.filterMap fun
    | .nan => some 3
    | .infinity negative => some (if negative then 4 else 3)
    | .finite .. => none
  { c with whole := max c.whole (words.foldl max 0 - c.afterWhole) }

/-- A number as it stands in a column. -/
def write (c : Column) (x : Binary64) : String :=
  let fill := fun (width : Nat) (cs : List Char) => List.replicate (width - cs.length) ' ' ++ cs
  String.ofList <| match x with
    | .finite negative units _ =>
      let p := parts c.single c.scientific negative units
      let padding := List.replicate (c.decimals - p.decimals.length)
        (if c.scientific then '0' else ' ')
      let exponent := if c.scientific then
          let digits := exponentText p.exponent
          'e' :: (if p.exponent < 0 then '-' else '+') ::
            List.replicate (c.exponentDigits - digits.length) '0' ++ digits
        else []
      fill c.whole p.whole ++ '.' :: p.decimals ++ padding ++ exponent
    | x => fill (c.whole + c.afterWhole) x.text.toList

end Column

end CellKeys
