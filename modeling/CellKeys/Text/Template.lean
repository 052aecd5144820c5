import CellKeys.Binary64.Rounding
import CellKeys.Fault
import CellKeys.Text.Digit

namespace CellKeys.Text

/-- How a field lays out a number. -/
structure Field where
  /-- Single characters that say how the field is filled up. -/
  flags : List Char
  width : Nat
  precision : Option Nat
  /-- The letter for the form. -/
  form : Char

/-- Reads text up to the first field: the text before it, and the field with all that follows. -/
def splitField : List Char → List Char × List Char
  | '%' :: '%' :: rest =>
    let (before, after) := splitField rest
    ('%' :: before, after)
  | '%' :: rest => ([], '%' :: rest)
  | c :: rest =>
    let (before, after) := splitField rest
    (c :: before, after)
  | [] => ([], [])

/-- The number at the front of a text, zero if there is none. It is refused beyond a limit. -/
def readCount (limit : Nat) (cs : List Char) : Except Fault (Nat × List Char) :=
  let count := (cs.takeWhile Char.isDigit).foldl (fun n c => 10 * n + (c.toNat - 48)) 0
  if limit < count then .error .template else .ok (count, cs.dropWhile Char.isDigit)

/-- A count of a field: a number, or a star for the number that is written, which is then taken. -/
def readCountOrStar (taken : Bool) (limit number : Nat) (cs : List Char) :
    Except Fault (Bool × Nat × List Char) := do
  match cs with
  | '*' :: rest => if taken then throw .notNumeric else return (true, number, rest)
  | cs =>
    let (count, rest) ← readCount limit cs
    return (taken, count, rest)

/-- Reads a field behind its percent sign, when the number may be taken already. -/
def readField (taken : Bool) (number : Nat) (cs : List Char) :
    Except Fault (Field × List Char) := do
  if cs.head? = some '(' then throw .notNumeric
  let isFlag := fun c => "-+ #0".toList.contains c
  let flags := cs.takeWhile isFlag
  let (taken, width, rest) ← readCountOrStar taken (2 ^ 63 - 1) number (cs.dropWhile isFlag)
  let (taken, precision, rest) ← match rest with
    | '.' :: rest => do
      let (taken, precision, rest) ← readCountOrStar taken (2 ^ 31 - 1) number rest
      pure (taken, some precision, rest)
    | rest => pure (taken, none, rest)
  let rest := match rest with
    | 'h' :: rest | 'l' :: rest | 'L' :: rest => rest
    | rest => rest
  match rest with
  | [] => throw .template
  | form :: rest =>
    if taken then throw .notNumeric else return (⟨flags, width, precision, form⟩, rest)

/-- Fields are filled up to this many characters at most; no number has so many digits. -/
def fillLimit : Nat := 10000

/-- This many copies of a character, within the limit. -/
def filling (count : Nat) (c : Char) : List Char := List.replicate (min count fillLimit) c

namespace Field

/-- Whether a field has a flag. -/
def has (f : Field) (flag : Char) : Bool := f.flags.contains flag

/-- Fills a field up: behind the text, or before it with blanks, or between its sign and its digits
    with zeros. -/
def fill (f : Field) (zeros : Bool) (sign body : List Char) : List Char :=
  let count := f.width - (sign.length + body.length)
  if f.has '-' then sign ++ body ++ filling count ' '
  else if zeros then sign ++ filling count '0' ++ body
  else filling count ' ' ++ sign ++ body

/-- A field with a text, cut off to the precision. -/
def text (f : Field) (body : List Char) : List Char :=
  f.fill false [] ((f.precision.map body.take).getD body)

/-- A field with the digits of a number, behind its sign and a mark of its base. -/
def number (f : Field) (mark body : List Char) : List Char :=
  let sign := if f.has '+' then ['+'] else if f.has ' ' then [' '] else []
  f.fill (f.has '0') (sign ++ mark) body

/-- A field with an integer in a base, in at least as many digits as the precision says. -/
def integer (f : Field) (base : Nat) (mark : String) (n : Nat) : List Char :=
  let digits := Nat.toDigits base n
  f.number (if f.has '#' then mark.toList else [])
    (filling (f.precision.getD 0 - digits.length) '0' ++ digits)

/-- Decimals behind a point, which is left out with them unless the field asks for it. -/
def decimals (f : Field) (ds : List Char) : List Char :=
  if ds.isEmpty && !f.has '#' then [] else '.' :: ds

/-- A number as one digit with this many decimals and an exponent. Zeros at the end are dropped when
    they are not kept. -/
def scientific (f : Field) (places : Nat) (keep : Bool) (n : Nat) : List Char :=
  let length := (Nat.toDigits 10 n).length
  let rounded := Nat.toDigits 10 (Binary64.nearestEven n (10 ^ (length - (places + 1))))
  let exponent := rounded.length - 1 + (length - (places + 1))
  let shown := (rounded.take (places + 1)).tail
  let shown := if keep then shown ++ filling (places - shown.length) '0'
    else (shown.reverse.dropWhile (· = '0')).reverse
  let power := Nat.toDigits 10 exponent
  rounded.take 1 ++ f.decimals shown ++ 'e' :: '+' ::
    List.replicate (2 - power.length) '0' ++ power

/-- A number with this many significant digits, with an exponent if it has more. -/
def general (f : Field) (n : Nat) : List Char :=
  let places := max (f.precision.getD 6) 1
  let digits := Nat.toDigits 10 n
  if places < digits.length then f.scientific (places - 1) (f.has '#') n
  else digits ++ f.decimals (if f.has '#' then filling (places - digits.length) '0' else [])

/-- The field with a number in it; `shown` is the text of the number for forms that are not
    numeric. -/
def write (f : Field) (n : Nat) (shown : String) : Except Fault (List Char) :=
  let places := f.precision.getD 6
  match f.form with
  | 'd' | 'i' | 'u' => .ok (f.integer 10 "" n)
  | 'o' => .ok (f.integer 8 "0o" n)
  | 'x' => .ok (f.integer 16 "0x" n)
  | 'X' => .ok ((f.integer 16 "0x" n).map Char.toUpper)
  | 'f' | 'F' => .ok (f.number [] (Nat.toDigits 10 n ++ f.decimals (filling places '0')))
  | 'e' => .ok (f.number [] (f.scientific places true n))
  | 'E' => .ok ((f.number [] (f.scientific places true n)).map Char.toUpper)
  | 'g' => .ok (f.number [] (f.general n))
  | 'G' => .ok ((f.number [] (f.general n)).map Char.toUpper)
  | 'c' => .ok (f.fill false [] [Char.ofNat n])
  | 's' => .ok (f.text (Nat.toDigits 10 n))
  | 'r' | 'a' => .ok (f.text shown.toList)
  | _ => .error .template

end Field

/-- A template with a number in its single field. -/
def fillTemplate (template : String) (n : Nat) (shown : String) : Except Fault String := do
  let (before, rest) := splitField template.toList
  match rest with
  | [] => throw .notNumeric
  | _ :: rest =>
    let (field, rest) ← readField false n rest
    let body ← field.write n shown
    let (after, rest) := splitField rest
    match rest with
    | [] => return String.ofList (before ++ body ++ after)
    | _ :: rest =>
      let _ ← readField true n rest
      throw .notNumeric

end CellKeys.Text
