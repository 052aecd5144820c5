import CellKeys.Width

namespace CellKeys

namespace Width

/-- The word whose bits are the low bits of an integer in two's complement. -/
def residue (w : Width) (n : Int) : Nat := (n % (w.modulus : Int)).toNat

/-- The amount a rotation really turns by: what is left of it after full turns. -/
def turn (w : Width) (amount : Int) : Nat := (amount % (w.bits : Int)).toNat

/-- Turns a word left. An amount that is no turn at all gives the integer back as it came, even one
    that is no word of this size; any other amount gives a word. -/
def rotateLeft (w : Width) (word amount : Int) : Int :=
  let left := w.turn amount
  if left = 0 then word
  else (w.residue (word * 2 ^ left) ||| w.residue (word / 2 ^ (w.bits - left)) : Nat)

theorem residue_of_lt (w : Width) {n : Nat} (h : n < w.modulus) : w.residue n = n := by
  unfold residue
  rw [Int.emod_eq_of_lt (by omega) (by exact_mod_cast h)]
  rfl

theorem turn_lt (w : Width) (amount : Int) : w.turn amount < w.bits := by
  have hpos : (0 : Int) < w.bits := by exact_mod_cast w.bits_pos
  have hlo := Int.emod_nonneg amount (Int.ne_of_gt hpos)
  have hhi := Int.emod_lt_of_pos amount hpos
  unfold turn
  omega

end Width

end CellKeys
