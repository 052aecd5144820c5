import CellKeys.Binary64.Arithmetic
import CellKeys.Fault
import CellKeys.Tensor

namespace CellKeys

namespace Heading

open Binary64

/-- One full turn is taken off a remainder above half a turn. -/
def lower (x : Binary64) : Binary64 := if pi.lt x then x.sub tau else x

/-- One full turn is added to a remainder below minus half a turn. -/
def raise (x : Binary64) : Binary64 := if x.lt pi.neg then x.add tau else x

/-- The heading that points the same way and lies in the range. -/
def wrap (theta : Binary64) : Except Fault Binary64 :=
  match theta with
  | .infinity _ => .error .infiniteHeading
  | theta =>
    let rest := theta.fmod tau
    .ok (if pi.lt rest then rest.sub tau else if rest.lt pi.neg then rest.add tau else rest)

/-- Wraps one heading of a batch. -/
def wrapEntry (theta : Binary64) : Binary64 := raise (lower (theta.fmod tau))

/-- Wraps every heading of an array. -/
def wrapAll (thetas : Tensor Binary64) : Tensor Binary64 := thetas.map wrapEntry

end Heading

end CellKeys
