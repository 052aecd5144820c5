import CellKeys.Axis.Word
import CellKeys.Proofs.Axis.Rotation
import Mathlib.Data.FinEnum
import Mathlib.Data.Int.ModEq
import Mathlib.Data.Nat.ModEq
import Mathlib.Data.Nat.Prime.Basic

namespace CellKeys

namespace Width

/-- The residue of a cell. A coordinate without a cell counts as the top bit alone. -/
def cellBits (w : Width) : Option Int → BitVec w.bits
  | some cell => BitVec.ofInt w.bits cell
  | none => BitVec.intMin w.bits

/-- The multiplier as a word. -/
def multiplierBits (w : Width) : BitVec w.bits := BitVec.ofNat w.bits w.multiplier

/-- The word of a cell on the axis with this index, where each axis has a number of bits. -/
def axisBits (w : Width) (bits index : Nat) (cell : Option Int) : BitVec w.bits :=
  (w.multiplierBits * w.cellBits cell).rotateLeft (bits * index)

theorem multiplier_coprime (w : Width) : Nat.Coprime w.modulus w.multiplier := by
  have hodd : Odd w.multiplier := Nat.odd_iff.mpr w.multiplier_odd
  exact Nat.Coprime.pow_left w.bits (Nat.coprime_two_left.mpr hodd)

/-- The multiplier sends different words to different words. -/
theorem spread_inj (w : Width) {u v : Nat} (hu : u < w.modulus) (hv : v < w.modulus) :
    w.spread u = w.spread v ↔ u = v := by
  constructor
  · intro h
    have hmod : u ≡ v [MOD w.modulus] := Nat.ModEq.cancel_left_of_coprime w.multiplier_coprime h
    exact Nat.ModEq.eq_of_lt_of_lt hmod hu hv
  · intro h
    rw [h]

theorem toNat_cellBits (w : Width) (cell : Option Int) :
    (w.cellBits cell).toNat = w.cellWord cell := by
  cases cell with
  | none => exact BitVec.toNat_intMin_of_pos w.bits_pos
  | some cell => exact (w.residue_eq_toNat_ofInt cell).symm

theorem toNat_multiplierBits (w : Width) : w.multiplierBits.toNat = w.multiplier :=
  Nat.mod_eq_of_lt w.multiplier_lt

/-- The product of bit vectors is the product that wraps around. -/
theorem toNat_multiplierBits_mul (w : Width) (v : BitVec w.bits) :
    (w.multiplierBits * v).toNat = w.spread v.toNat := by
  rw [BitVec.toNat_mul, toNat_multiplierBits]
  rfl

theorem multiplierBits_mul_inj (w : Width) {u v : BitVec w.bits} :
    w.multiplierBits * u = w.multiplierBits * v ↔ u = v := by
  rw [← BitVec.toNat_inj, toNat_multiplierBits_mul, toNat_multiplierBits_mul,
    w.spread_inj u.isLt v.isLt, BitVec.toNat_inj]

theorem axisBits_inj (w : Width) {bits index : Nat} {b c : Option Int} :
    w.axisBits bits index b = w.axisBits bits index c ↔ w.cellBits b = w.cellBits c := by
  rw [axisBits, axisBits, Word.rotateLeft_inj, multiplierBits_mul_inj]

theorem cast_modulus (w : Width) : (w.modulus : Int) = 2 ^ w.bits := by
  unfold modulus
  push_cast
  rfl

theorem natCast_residue (w : Width) (n : Int) : (w.residue n : Int) = n % 2 ^ w.bits := by
  have hpos : (w.modulus : Int) ≠ 0 := by exact_mod_cast Nat.ne_of_gt w.modulus_pos
  rw [residue, Int.toNat_of_nonneg (Int.emod_nonneg n hpos), cast_modulus]

/-- No rotation but the one by nothing leaves the multiplier as it is. -/
theorem eq_zero_of_multiplierBits_rotateLeft (w : Width) :
    ∀ amount < w.bits, w.multiplierBits.rotateLeft amount = w.multiplierBits → amount = 0 := by
  cases w <;> decide +kernel

/-- Rotations of the multiplier by different amounts below a full turn are different words. -/
theorem multiplierBits_rotateLeft_inj (w : Width) {a b : Nat} (ha : a < w.bits) (hb : b < w.bits)
    (h : w.multiplierBits.rotateLeft a = w.multiplierBits.rotateLeft b) : a = b := by
  have hsame : ∀ {c d : Nat}, c ≤ d → d < w.bits →
      w.multiplierBits.rotateLeft c = w.multiplierBits.rotateLeft d → c = d := by
    intro c d hle hd heq
    have hrest : (w.multiplierBits.rotateLeft (d - c)).rotateLeft c =
        w.multiplierBits.rotateLeft c := by
      rw [Word.rotateLeft_rotateLeft, Nat.sub_add_cancel hle, heq]
    have hzero := w.eq_zero_of_multiplierBits_rotateLeft (d - c) (by omega)
      (Word.rotateLeft_inj.mp hrest)
    omega
  rcases Nat.le_total a b with hle | hle
  · exact hsame hle hb h
  · exact (hsame hle ha h.symm).symm

/-- Residues are equal just where cells are congruent. -/
theorem cellBits_some_inj (w : Width) {b c : Int} :
    w.cellBits (some b) = w.cellBits (some c) ↔ b ≡ c [ZMOD 2 ^ w.bits] := by
  rw [← BitVec.toNat_inj, toNat_cellBits, toNat_cellBits, Int.ModEq, ← natCast_residue,
    ← natCast_residue, Int.ofNat_inj]
  rfl

/-- Cells that differ by less than the number of words have different residues. -/
theorem cellBits_ne (w : Width) {b c : Int} (hne : b ≠ c) (hnear : (b - c).natAbs < w.modulus) :
    w.cellBits (some b) ≠ w.cellBits (some c) := by
  intro h
  have hdvd := (w.cellBits_some_inj.mp h).symm.dvd
  rw [← cast_modulus] at hdvd
  have hzero := Int.eq_zero_of_dvd_of_natAbs_lt_natAbs hdvd (by simpa using hnear)
  omega

/-- A coordinate without a cell has the residue of the cell that is half the number of words. -/
theorem cellBits_none (w : Width) : w.cellBits none = w.cellBits (some (2 ^ (w.bits - 1))) := by
  cases w <;> rfl

/-- An odd multiplier leaves the top bit alone as it is. -/
theorem spread_signWord (w : Width) : w.spread w.signWord = w.signWord := by
  obtain ⟨k, hk⟩ : ∃ k, w.multiplier = 2 * k + 1 := ⟨w.multiplier / 2, by
    have hodd := w.multiplier_odd
    omega⟩
  have hdouble : 2 * w.signWord = w.modulus := by cases w <;> rfl
  have hproduct : w.multiplier * w.signWord = k * w.modulus + w.signWord := by
    rw [hk, ← hdouble, Nat.add_mul, Nat.one_mul, Nat.mul_assoc, Nat.mul_left_comm]
  rw [spread, hproduct, Nat.mul_add_mod_self_right, Nat.mod_eq_of_lt w.signWord_lt]

theorem cellHash_eq (w : Width) (cell : Option Int) :
    w.cellHash cell = (w.multiplierBits * w.cellBits cell).toNat := by
  rw [toNat_multiplierBits_mul, toNat_cellBits]
  rfl

/-- The word of an axis, turned by any amount, as a bit vector. -/
theorem axisWord_eq (w : Width) (cell : Option Int) (amount : Int) :
    w.axisWord cell amount =
      ((w.multiplierBits * w.cellBits cell).rotateLeft (w.turn amount)).toNat := by
  rw [axisWord, cellHash_eq, rotateLeft_toNat]

theorem axisWord_inj (w : Width) {b c : Option Int} {amount : Int} :
    w.axisWord b amount = w.axisWord c amount ↔ w.cellBits b = w.cellBits c := by
  rw [axisWord_eq, axisWord_eq, Int.ofNat_inj, BitVec.toNat_inj, Word.rotateLeft_inj,
    multiplierBits_mul_inj]

/-- Cells have one word on an axis just where they are congruent. -/
theorem axisWord_some_inj (w : Width) {b c amount : Int} :
    w.axisWord (some b) amount = w.axisWord (some c) amount ↔ b ≡ c [ZMOD 2 ^ w.bits] := by
  rw [axisWord_inj, cellBits_some_inj]

/-- The word of a coordinate without a cell is that of the cells congruent to half the number of
    words. -/
theorem axisWord_eq_none_iff (w : Width) {b amount : Int} :
    w.axisWord (some b) amount = w.axisWord none amount ↔
      b ≡ 2 ^ (w.bits - 1) [ZMOD 2 ^ w.bits] := by
  rw [axisWord_inj, cellBits_none, cellBits_some_inj]

/-- Every word is the word of a cell in the range of signed integers of the word size. -/
theorem exists_axisWord_eq (w : Width) (amount : Int) {word : Nat} (h : word < 2 ^ w.bits) :
    ∃ cell : Int, -2 ^ (w.bits - 1) ≤ cell ∧ cell < 2 ^ (w.bits - 1) ∧
      w.axisWord (some cell) amount = word := by
  have hinj : Function.Injective fun v : BitVec w.bits =>
      (w.multiplierBits * v).rotateLeft (w.turn amount) := by
    intro u v huv
    exact w.multiplierBits_mul_inj.mp (Word.rotateLeft_inj.mp huv)
  -- There are finitely many words, so no word is missed.
  obtain ⟨v, hv⟩ := Finite.surjective_of_injective hinj (BitVec.ofNat w.bits word)
  refine ⟨v.toInt, v.le_toInt, v.toInt_lt, ?_⟩
  have hcell : w.cellBits (some v.toInt) = v := BitVec.ofInt_toInt
  rw [axisWord_eq, hcell]
  exact_mod_cast (congrArg BitVec.toNat hv).trans (Nat.mod_eq_of_lt h)

/-- A coordinate without a cell has the word of a single bit: the top one, turned. -/
theorem axisWord_none (w : Width) (amount : Int) :
    w.axisWord none amount = 2 ^ w.turn (w.bits - 1 + amount) := by
  have hpos := w.bits_pos
  have hlt : w.bits - 1 < w.bits := by omega
  have hstart : (w.bits : Int) - 1 = (w.bits - 1 : Nat) := by omega
  have hspread : w.multiplierBits * BitVec.intMin w.bits = BitVec.twoPow w.bits (w.bits - 1) := by
    rw [← BitVec.toNat_inj, toNat_multiplierBits_mul, BitVec.toNat_intMin_of_pos hpos,
      BitVec.toNat_twoPow_of_lt hlt]
    exact w.spread_signWord
  rw [axisWord_eq, cellBits, hspread, Word.rotateLeft_twoPow hlt, hstart, turn_natCast_add,
    BitVec.toNat_twoPow_of_lt (Nat.mod_lt _ hpos)]
  push_cast
  rfl

theorem axisWord_natCast (w : Width) (cell : Option Int) (bits index : Nat) :
    w.axisWord cell (bits * index) = (w.axisBits bits index cell).toNat := by
  rw [axisWord_eq, ← Int.natCast_mul, turn_natCast, BitVec.rotateLeft_mod_eq_rotateLeft]
  rfl

end Width

end CellKeys
