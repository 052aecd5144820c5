import CellKeys.Binary64.Arithmetic

namespace CellKeys

/-- What kind of entries an array holds. -/
inductive ElementKind where
  | float64
  | float32
  | bool
  | signed (bits : Nat)
  | unsigned (bits : Nat)
  deriving DecidableEq, Repr

/-- An entry of an array. A single-precision number is the equal binary64 value. -/
inductive Element where
  | float (x : Binary64)
  | int (n : Int)
  | bool (b : Bool)
  deriving DecidableEq

/-- An entry on its own, with its kind. -/
structure Scalar where
  kind : ElementKind
  element : Element
  deriving DecidableEq

namespace ElementKind

/-- Name of a kind. -/
def name : ElementKind → String
  | float64 => "float64"
  | float32 => "float32"
  | bool => "bool"
  | signed bits => "int" ++ Nat.repr bits
  | unsigned bits => "uint" ++ Nat.repr bits

/-- The kinds that have a name to be read. -/
def named : List ElementKind :=
  [float64, float32, bool, signed 8, signed 16, signed 32, signed 64, unsigned 8, unsigned 16,
    unsigned 32, unsigned 64]

/-- The kind with this name. -/
def ofName? (s : String) : Option ElementKind := named.find? (·.name == s)

/-- Whether an integer is in the range of the kind. -/
def holds : ElementKind → Int → Bool
  | signed bits, n => -(2 ^ (bits - 1)) ≤ n && n < 2 ^ (bits - 1)
  | unsigned bits, n => 0 ≤ n && n < 2 ^ bits
  | _, _ => false

end ElementKind

def boolText (b : Bool) : String := if b then "True" else "False"

/-- The number a truth value stands for. -/
def Binary64.ofBool (b : Bool) : Binary64 := if b then one else zero false

/-- The value nearest to an entry. -/
def Element.value : Element → Binary64
  | float x => x
  | int n => .ofInt n
  | bool b => .ofBool b

end CellKeys
