import CellKeys.Power

namespace CellKeys

/-- The size of a key word. -/
inductive Width where
  | w32
  | w64
  deriving DecidableEq, Repr

namespace Width

/-- Every size, the narrow one first. -/
def all : List Width := [.w32, .w64]

/-- Number of bits in a word. -/
def bits : Width → Nat
  | w32 => 32
  | w64 => 64

/-- Number of words of this size; words are the naturals below it. -/
def modulus (w : Width) : Nat := 2 ^ w.bits

/-- The word with every bit set. -/
def mask (w : Width) : Nat := w.modulus - 1

/-- The modulus over the golden ratio, rounded to an odd number. -/
def multiplier : Width → Nat
  | w32 => 2654435769
  | w64 => 11400714819323198485

/-- The sign bit alone: the word that stands for a coordinate without a cell index. -/
def signWord (w : Width) : Nat := 2 ^ (w.bits - 1)

theorem bits_pos (w : Width) : 0 < w.bits := by cases w <;> decide

theorem modulus_pos (w : Width) : 0 < w.modulus := by cases w <;> decide

theorem multiplier_odd (w : Width) : w.multiplier % 2 = 1 := by cases w <;> rfl

theorem multiplier_lt (w : Width) : w.multiplier < w.modulus := by cases w <;> decide

theorem signWord_lt (w : Width) : w.signWord < w.modulus := by cases w <;> decide

end Width

end CellKeys
