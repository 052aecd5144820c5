import CellKeys.Value.Equality

namespace CellKeys

namespace Value

mutual

/-- Whether a value has a hash: lists, arrays and mappings have none, nor has what holds one. -/
def hashable : Value → Bool
  | list .. | dict | array .. => false
  | tuple items => allHashable items
  | pose x y theta _ => x.hashable && y.hashable && theta.hashable
  | slots _ resolution size _ _ _ => resolution.hashable && size.hashable
  | _ => true

/-- Whether every value of a list has a hash. -/
def allHashable : List Value → Bool
  | [] => true
  | v :: vs => v.hashable && allHashable vs

end

mutual

/-- Whether the hashes of two equal values agree. -/
def sameHash : Value → Value → Bool
  | tuple xs, tuple ys => allSameHash xs ys
  | pose x y theta _, pose x₂ y₂ theta₂ _ =>
    x.sameHash x₂ && y.sameHash y₂ && theta.sameHash theta₂
  | slots _ resolution size _ _ _, slots _ resolution₂ size₂ _ _ _ =>
    resolution.sameHash resolution₂ && size.sameHash size₂
  | a, b => match a.toNumber, b.toNumber with
    | .ok x, .ok y => x.sameHash y
    | .error _, .error _ => true
    | _, _ => false

/-- Whether the hashes of equal values in two lists agree. -/
def allSameHash : List Value → List Value → Bool
  | a :: as, b :: bs => a.sameHash b && allSameHash as bs
  | _, _ => true

end

end Value

end CellKeys
