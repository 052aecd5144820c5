import CellKeys.Binary64.Rounding

namespace CellKeys

/-- A binary64 value. All NaNs are one value; a finite value is its sign and its magnitude in units
    of 2^-1074, and both zeros have magnitude 0. -/
inductive Binary64 where
  | nan
  | infinity (negative : Bool)
  | finite (negative : Bool) (units : Nat) (representable : Binary64.Representable units)
  deriving DecidableEq

namespace Binary64

/-- The zero of either sign. -/
def zero (negative : Bool) : Binary64 := .finite negative 0 representable_zero

instance : Inhabited Binary64 := ⟨zero false⟩

/-- The value of this sign nearest to a ratio of units: an infinity when that is too large. -/
def round (negative : Bool) (num den : Nat) : Binary64 :=
  if h : nearest num den < unitLimit then
    .finite negative (nearest num den) (representable_nearest h)
  else .infinity negative

/-- The value nearest to a signed number of units; an exact zero gets the sign given for it. -/
def roundUnits (zeroNegative : Bool) (units : Int) : Binary64 :=
  if units = 0 then zero zeroNegative else round (units < 0) units.natAbs 1

def isNaN : Binary64 → Bool
  | nan => true
  | _ => false

def isFinite : Binary64 → Bool
  | finite .. => true
  | _ => false

def isZero : Binary64 → Bool
  | finite _ units _ => units == 0
  | _ => false

/-- The sign bit; a NaN has none. -/
def isNegative : Binary64 → Bool
  | nan => false
  | infinity negative => negative
  | finite negative _ _ => negative

/-- The value of the other sign. -/
def neg : Binary64 → Binary64
  | nan => nan
  | infinity negative => infinity !negative
  | finite negative units h => finite (!negative) units h

/-- A signed magnitude as an integer of units; both zeros give 0. -/
def signedUnits (negative : Bool) (units : Nat) : Int := if negative then -units else units

/-- Equality of numbers: the zeros are equal and a NaN equals nothing. -/
def numEq : Binary64 → Binary64 → Bool
  | infinity s, infinity t => s == t
  | finite s a _, finite t b _ => signedUnits s a == signedUnits t b
  | _, _ => false

/-- Order of numbers; false when either is a NaN. -/
def lt : Binary64 → Binary64 → Bool
  | infinity s, infinity t => s && !t
  | infinity s, finite .. => s
  | finite .., infinity t => !t
  | finite s a _, finite t b _ => signedUnits s a < signedUnits t b
  | _, _ => false

def le (a b : Binary64) : Bool := a.lt b || a.numEq b

@[simp]
theorem neg_neg (x : Binary64) : x.neg.neg = x := by cases x <;> simp [neg]

theorem signedUnits_not (negative : Bool) (units : Nat) :
    signedUnits (!negative) units = -signedUnits negative units := by
  cases negative <;> simp [signedUnits]

theorem natAbs_signedUnits (negative : Bool) (units : Nat) :
    (signedUnits negative units).natAbs = units := by
  cases negative <;> simp [signedUnits]

/-- Rounding a value that is on the grid changes nothing. -/
theorem round_one_of_representable (negative : Bool) {units : Nat} (h : Representable units) :
    round negative units 1 = .finite negative units h := by
  have hnearest := nearest_one_of_dvd h.2
  have hsmall : nearest units 1 < unitLimit := by
    rw [hnearest]
    exact h.1
  rw [round, dif_pos hsmall, finite.injEq]
  exact ⟨rfl, hnearest⟩

end Binary64

end CellKeys
