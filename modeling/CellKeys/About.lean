import CellKeys.Binary64.Bits
import CellKeys.Width

namespace CellKeys

namespace About

def version : String := "1.0.0"

/-- The names that are offered, in order. -/
def names : List String :=
  ["ArrayHash", "Pose2D", "Pose2DHash", "SpatialHash", "TupleHash", "WordWidth", "bits_per_axis",
    "floor_and_fibo_hash", "floor_and_fibo_hash_array", "hash_axes", "hash_axes_array",
    "make_spatial_hash", "rotate_left", "saturated_word", "wrap_angle", "wrap_angles"]

/-- The multiplier of each word size, in decimal digits, by the number of bits. -/
def multipliers : List (String × String) :=
  Width.all.map fun w => (Nat.repr w.bits, Nat.repr w.multiplier)

/-- A full turn. -/
def turn : Binary64 := .tau

end About

end CellKeys
