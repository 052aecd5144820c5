import CellKeys.Decimal.Shortest

namespace CellKeys

/-- Choices in the layout of a number. -/
structure Layout where
  /-- Least exponent of the first digit that is written positionally. -/
  positionalFrom : Int
  /-- Greatest exponent of the first digit that is written positionally. -/
  positionalTo : Int
  /-- Least number of digits in a written exponent. -/
  exponentDigits : Nat
  infinity : String
  nan : String

namespace Layout

def plain : Layout where
  positionalFrom := -4
  positionalTo := 15
  exponentDigits := 2
  infinity := "inf"
  nan := "nan"

/-- Digits with a point after the digit of exponent zero, and a digit on either side of the point.
    -/
def positional (digits : List Char) (first : Int) : List Char :=
  if first < 0 then '0' :: '.' :: List.replicate (-first - 1).toNat '0' ++ digits
  else
    let whole := first.toNat + 1
    let fraction := digits.drop whole
    digits.take whole ++ List.replicate (whole - digits.length) '0' ++ '.' ::
      (if fraction.isEmpty then ['0'] else fraction)

/-- Digits with a point after the first, where others follow, and an exponent. -/
def scientific (l : Layout) (digits : List Char) (first : Int) : List Char :=
  let mantissa := match digits with
    | [] => []
    | [d] => [d]
    | d :: rest => d :: '.' :: rest
  let exponent := Nat.toDigits 10 first.natAbs
  mantissa ++ 'e' :: (if first < 0 then '-' else '+') ::
    List.replicate (l.exponentDigits - exponent.length) '0' ++ exponent

/-- A decimal number as text. -/
def decimal (l : Layout) (d : Decimal) : List Char :=
  let digits := Nat.toDigits 10 d.digits
  let first := d.exponent + digits.length - 1
  if l.positionalFrom ≤ first ∧ first ≤ l.positionalTo then positional digits first
  else l.scientific digits first

/-- A value as text, by a rule for the decimal that stands for its magnitude. -/
def writeBy (l : Layout) (choose : Nat → Decimal) : Binary64 → String
  | .nan => l.nan
  | .infinity negative => (if negative then "-" else "") ++ l.infinity
  | .finite negative units _ =>
    let digits := if units = 0 then positional ['0'] 0 else l.decimal (choose units)
    (if negative then "-" else "") ++ String.ofList digits

end Layout

/-- An integer in decimal digits. -/
def intText (n : Int) : String :=
  if n < 0 then "-" ++ Nat.repr n.natAbs else Nat.repr n.natAbs

/-- A value as text: the shortest digits that read back as the value, in the plain layout. -/
def Binary64.text (x : Binary64) : String := Layout.plain.writeBy Decimal.shortest x

/-- A single-precision value as text: the shortest digits that read back in single precision. -/
def Binary64.singleText (x : Binary64) : String := Layout.plain.writeBy Decimal.shortestSingle x

end CellKeys
