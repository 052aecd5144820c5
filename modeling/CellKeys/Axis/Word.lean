import CellKeys.Rotation

namespace CellKeys

namespace Width

/-- The word that stands for a cell, or for the lack of one. -/
def cellWord (w : Width) : Option Int → Nat
  | some cell => w.residue cell
  | none => w.signWord

/-- A word spread over all bits by the multiplier of its size. -/
def spread (w : Width) (word : Nat) : Nat := w.multiplier * word % w.modulus

/-- The word of a cell before it is turned to its band. -/
def cellHash (w : Width) (cell : Option Int) : Nat := w.spread (w.cellWord cell)

/-- The word of a cell, turned left by this amount. -/
def axisWord (w : Width) (cell : Option Int) (amount : Int) : Int :=
  w.rotateLeft (w.cellHash cell) amount

/-- The number of bits that each of this many axes has for itself. -/
def bitsPerAxis (w : Width) (axes : Nat) : Nat := w.bits / axes

theorem spread_lt (w : Width) (word : Nat) : w.spread word < w.modulus :=
  Nat.mod_lt _ w.modulus_pos

end Width

end CellKeys
