import CellKeys.Binary64.Arithmetic
import CellKeys.Decimal.Shortest
import CellKeys.Text.Blank
import CellKeys.Text.Digit

namespace CellKeys.Decimal

/-- A number as it is written: sign, digits before and after the point, and exponent. -/
structure Numeral where
  negative : Bool
  whole : List Nat
  fraction : List Nat
  exponent : Int

/-- What a text can say about a value. -/
inductive Literal where
  | numeral (n : Numeral)
  | infinity (negative : Bool)
  | nan

/-- The characters of a text with its digits in ASCII and without the blanks around it. -/
def plainChars (s : String) : List Char :=
  (Text.trim s.toList).map fun c => match Text.digitValue? c with
    | some n => Char.ofNat (48 + n)
    | none => c

/-- Removes underscores, each of which has to stand between two digits; `afterDigit` tells whether
    the text begins just after a digit. -/
def removeUnderscores? (afterDigit : Bool) : List Char → Option (List Char)
  | [] => some []
  | '_' :: c :: rest =>
    if afterDigit && c.isDigit then (removeUnderscores? true rest).map (c :: ·) else none
  | c :: rest => if c = '_' then none else (removeUnderscores? c.isDigit rest).map (c :: ·)

/-- Splits off a sign; without one the number is positive. -/
def splitSign : List Char → Bool × List Char
  | '-' :: rest => (true, rest)
  | '+' :: rest => (false, rest)
  | cs => (false, cs)

def digitValue (c : Char) : Nat := c.toNat - 48

/-- Splits off the digits at the front. -/
def splitDigits (cs : List Char) : List Nat × List Char :=
  ((cs.takeWhile Char.isDigit).map digitValue, cs.dropWhile Char.isDigit)

/-- The number that digits stand for, the first one being the most significant. -/
def ofDigits (digits : List Nat) : Nat := digits.foldl (fun n d => 10 * n + d) 0

/-- The exponent that a text consists of, zero if the text is empty. -/
def exponent? : List Char → Option Int
  | [] => some 0
  | c :: rest =>
    if c = 'e' || c = 'E' then
      let (negative, rest) := splitSign rest
      match splitDigits rest with
      | (d :: ds, []) => some (if negative then -(ofDigits (d :: ds) : Int) else ofDigits (d :: ds))
      | _ => none
    else none

/-- Reads a number without blanks and underscores. -/
def literal? (cs : List Char) : Option Literal :=
  let (negative, body) := splitSign cs
  let word := body.map Char.toLower
  if word = "inf".toList ∨ word = "infinity".toList then some (.infinity negative)
  else if word = "nan".toList then some .nan
  else
    let (whole, rest) := splitDigits body
    let (fraction, rest) := match rest with
      | '.' :: rest => splitDigits rest
      | rest => ([], rest)
    if whole.isEmpty && fraction.isEmpty then none
    else (exponent? rest).map fun exponent => .numeral ⟨negative, whole, fraction, exponent⟩

/-- Decimal exponents beyond this are settled without computing a power of ten. -/
def orderLimit : Int := 400

/-- The value nearest to a number as it is written. -/
def Numeral.value (n : Numeral) : Binary64 :=
  let digits := ofDigits (n.whole ++ n.fraction)
  let exponent := n.exponent - n.fraction.length
  let order := (length digits : Int) + exponent
  if digits = 0 then .zero n.negative
  else if orderLimit < order then .infinity n.negative
  else if order < -orderLimit then .zero n.negative
  else .ofDecimal n.negative digits exponent

def Literal.value : Literal → Binary64
  | numeral n => n.value
  | infinity negative => .infinity negative
  | nan => .nan

/-- The value that a text stands for, if it is the text of a number. -/
def read? (s : String) : Option Binary64 :=
  ((removeUnderscores? false (plainChars s)).bind literal?).map Literal.value

/-- The greatest number of digits in the text of an integer. -/
def digitLimit : Nat := 4300

/-- The integer that a text stands for, if it is the text of one and not too long. -/
def readInt? (s : String) : Option Int :=
  (removeUnderscores? false (plainChars s)).bind fun cs =>
    let (negative, body) := splitSign cs
    match splitDigits body with
    | (d :: ds, []) =>
      if digitLimit ≤ ds.length then none
      else some (if negative then -(ofDigits (d :: ds) : Int) else ofDigits (d :: ds))
    | _ => none

end CellKeys.Decimal
