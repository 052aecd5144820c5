import CellKeys.Decimal.Layout
import CellKeys.Text.Quoted
import CellKeys.Value.Grid
import CellKeys.Value.Number

namespace CellKeys

/-- Items between parentheses, with a comma after a single one. -/
def tupleText : List String → String
  | [item] => "(" ++ item ++ ",)"
  | items => "(" ++ ", ".intercalate items ++ ")"

/-- A word size by its name and its number of bits. -/
def Width.text (w : Width) : String :=
  "<WordWidth.W" ++ Nat.repr w.bits ++ ": " ++ Nat.repr w.bits ++ ">"

/-- A hasher as its class, its cell sizes and its word size. -/
def Hasher.text (h : Hasher) : String :=
  h.kind.name ++ "(" ++ tupleText (h.cellSizes.map Binary64.text) ++ ", width=" ++
    Nat.repr h.width.bits ++ ")"

/-- A pose as its type and its attributes, which are given as text. -/
def poseText (x y theta : String) : String :=
  "Pose2D(x=" ++ x ++ ", y=" ++ y ++ ", theta=" ++ theta ++ ")"

/-- A scalar as text with its kind, in the digits that its precision needs. -/
def Scalar.text (s : Scalar) : String :=
  match s.kind, s.element with
  | _, .bool b => "np." ++ boolText b ++ "_"
  | .float32, .float x => "np.float32(" ++ x.singleText ++ ")"
  | kind, e => "np." ++ kind.name ++ "(" ++ e.text ++ ")"

namespace Value

/-- The integer part of a value as text, if it has one. -/
def wholeText (v : Value) : String :=
  match v.toInt with
  | .ok n => intText n
  | .error _ => "..."

mutual

/-- A value as text inside these lists. A list inside itself is not written out again. -/
def shownWithin (outer : List Nat) : Value → String
  | none => "None"
  | bool b => boolText b
  | int n => intText n
  | width w => w.text
  | float x _ => x.text
  | fraction q => "Fraction(" ++ intText q.num ++ ", " ++ Nat.repr q.den ++ ")"
  | scalar s _ => s.text
  | text s => Text.quoted s
  | tuple items => tupleText (shownAllWithin outer items)
  | list items m =>
    if m.any outer.contains then "[...]"
    else "[" ++ ", ".intercalate (shownAllWithin (m.toList ++ outer) items) ++ "]"
  | dict => "\x7b\x7d"
  | array kind t _ => Grid.text kind t
  | pose x y theta _ =>
    poseText (x.shownWithin outer) (y.shownWithin outer) (theta.shownWithin outer)
  | foreign name .. => "<" ++ name ++ " object>"
  | slots kind resolution size _ _ _ =>
    kind.name ++ "(" ++ resolution.shownWithin outer ++ ", width=" ++ size.wholeText ++ ")"
  | other name => "<" ++ name ++ ">"
  | object _ => "<object>"
  | endless => "..."

/-- Values as texts inside these lists. -/
def shownAllWithin (outer : List Nat) : List Value → List String
  | [] => []
  | v :: vs => v.shownWithin outer :: shownAllWithin outer vs

end

/-- A value as text. -/
def shown (v : Value) : String := v.shownWithin []

mutual

/-- Why a value has no text: it holds a hasher with something else than an integer as word size. -/
def unshown? : Value → Option Fault
  | tuple items | list items _ => unshownAll? items
  | pose x y theta _ => x.unshown? <|> y.unshown? <|> theta.unshown?
  | slots _ resolution size _ _ _ => resolution.unshown? <|> match size.toInt with
    | .ok _ => .none
    | .error e => some e
  | _ => .none

/-- Why one of these values has no text, the first of them that has none. -/
def unshownAll? : List Value → Option Fault
  | [] => .none
  | v :: vs => v.unshown? <|> unshownAll? vs

end

/-- A value as text, if it has one. -/
def written (v : Value) : Except Fault String :=
  match v.unshown? with
  | .none => .ok v.shown
  | some e => .error e

/-- A value as text, where a number is written without its type. -/
def plainText : Value → String
  | width w => Nat.repr w.bits
  | fraction q => if q.den = 1 then intText q.num else intText q.num ++ "/" ++ Nat.repr q.den
  | scalar s _ => s.element.text
  | array _ ⟨[], [e], _⟩ _ => e.text
  | array kind t _ => Grid.plainText kind t
  | text s => s
  | v => v.shown

end Value

end CellKeys
