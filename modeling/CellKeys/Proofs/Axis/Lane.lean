import CellKeys.Axis.Lane
import CellKeys.Axis.Word
import CellKeys.Proofs.Axis.Rotation
import CellKeys.Proofs.Axis.Word
import CellKeys.Proofs.Binary64.Fraction

namespace CellKeys

open Binary64

namespace Binary64

/-- A value that is exactly this whole number. -/
def IsWhole (x : Binary64) (n : Int) : Prop := (Number.float x).rational? = some (n : Rat)

/-- The value itself if it is finite, and else zero. -/
def finiteOrZero (x : Binary64) : Binary64 := if x.isFinite then x else .zero false

theorem exists_units?_finiteOrZero (x : Binary64) : ∃ u, x.finiteOrZero.units? = some u := by
  cases x with
  | nan | infinity | finite => exact ⟨_, rfl⟩

/-- Cutting a whole number in range off to a machine integer keeps it. -/
theorem toInt64_of_isWhole {x : Binary64} {n : Int} (h : x.IsWhole n) (hlo : -2 ^ 63 ≤ n)
    (hhi : n < 2 ^ 63) : x.toInt64 = Int64.ofInt n := by
  have htruncate := truncate?_of_units? (rational?_eq_intCast.mp h)
  rw [Int.mul_tdiv_cancel n (Int.ne_of_gt unitsPerOne_pos_int)] at htruncate
  simp only [toInt64, htruncate, if_pos (And.intro hlo hhi)]

end Binary64

namespace Width

section

variable {x : Binary64} {n m : Int}

theorem lowered_eq (h : x.IsWhole n) :
    lowered x = if 2 ^ 63 ≤ n then x.sub (twoPow 64) else x := by
  rw [lowered, le_of_units? (units?_twoPow (by decide)) (rational?_eq_intCast.mp h)]
  simp only [Int.mul_le_mul_right unitsPerOne_pos_int, decide_eq_true_eq]

theorem raised_eq (h : x.IsWhole n) :
    raised x = if n < -2 ^ 63 then x.add (twoPow 64) else x := by
  have hbound := units?_neg (units?_twoPow (n := 63) (by decide))
  rw [raised, lt_of_units? (rational?_eq_intCast.mp h) hbound, ← Int.neg_mul]
  simp only [Int.mul_lt_mul_right unitsPerOne_pos_int, decide_eq_true_eq]

/-- Subtracting 2^64 is exact for whole numbers from 2^63 on. -/
theorem isWhole_sub_twoPow (h : x.IsWhole n) (hlo : 2 ^ 63 ≤ n) (hhi : n < 2 ^ 64) :
    (x.sub (twoPow 64)).IsWhole (n - 2 ^ 64) := by
  have hunit := Int.le_of_lt unitsPerOne_pos_int
  have hbottom := Int.mul_le_mul_of_nonneg_right hlo hunit
  have htop := Int.mul_le_mul_of_nonneg_right (Int.le_of_lt hhi) hunit
  apply rational?_eq_intCast.mpr
  rw [Int.sub_mul]
  exact units?_sub_of_near (rational?_eq_intCast.mp h) (units?_twoPow (by decide)) htop (by omega)

/-- Adding 2^64 is exact for whole numbers below -2^63. -/
theorem isWhole_add_twoPow (h : x.IsWhole n) (hlo : -2 ^ 64 < n) (hhi : n < -2 ^ 63) :
    (x.add (twoPow 64)).IsWhole (n + 2 ^ 64) := by
  have hunit := Int.le_of_lt unitsPerOne_pos_int
  have hbottom := Int.mul_le_mul_of_nonneg_right (Int.le_of_lt hlo) hunit
  have htop := Int.mul_le_mul_of_nonneg_right (Int.le_of_lt hhi) hunit
  apply rational?_eq_intCast.mpr
  rw [Int.add_mul]
  exact units?_add_of_near (rational?_eq_intCast.mp h) (units?_twoPow (by decide)) (by omega)
    (by omega)

/-- What the corrections by 2^64 make of a value that is a whole number: in each of the three cases
    at most one of them is made, and that one is exact. -/
inductive IsCorrected (x : Binary64) (n : Int) : Int → Prop where
  | inRange (hlo : -2 ^ 63 ≤ n) (hhi : n < 2 ^ 63) (hlow : lowered x = x) (hraise : raised x = x) :
    IsCorrected x n n
  | above (h : 2 ^ 63 ≤ n) (hlow : lowered x = x.sub (twoPow 64))
    (hexact : (x.sub (twoPow 64)).IsWhole (n - 2 ^ 64))
    (hraise : raised (x.sub (twoPow 64)) = x.sub (twoPow 64)) : IsCorrected x n (n - 2 ^ 64)
  | below (h : n < -2 ^ 63) (hlow : lowered x = x) (hraise : raised x = x.add (twoPow 64))
    (hexact : (x.add (twoPow 64)).IsWhole (n + 2 ^ 64)) : IsCorrected x n (n + 2 ^ 64)

theorem exists_isCorrected (h : x.IsWhole n) (hlo : -2 ^ 64 < n) (hhi : n < 2 ^ 64) :
    ∃ m, IsCorrected x n m := by
  have hlow := lowered_eq h
  have hraise := raised_eq h
  by_cases hlarge : 2 ^ 63 ≤ n
  · -- What was lowered is in the range, so it is not raised again.
    have hexact := isWhole_sub_twoPow h hlarge hhi
    have hkept := raised_eq hexact
    rw [if_pos hlarge] at hlow
    rw [if_neg (by omega)] at hkept
    exact ⟨_, .above hlarge hlow hexact hkept⟩
  · rw [if_neg hlarge] at hlow
    by_cases hsmall : n < -2 ^ 63
    · rw [if_pos hsmall] at hraise
      exact ⟨_, .below hsmall hlow hraise (isWhole_add_twoPow h hlo hsmall)⟩
    · rw [if_neg hsmall] at hraise
      exact ⟨_, .inRange (by omega) (by omega) hlow hraise⟩

namespace IsCorrected

theorem isWhole (h : IsCorrected x n m) (hx : x.IsWhole n) : (raised (lowered x)).IsWhole m := by
  cases h with
  | inRange hlo hhi hlow hraise =>
    rw [hlow, hraise]
    exact hx
  | above h hlow hexact hraise =>
    rw [hlow, hraise]
    exact hexact
  | below h hlow hraise hexact =>
    rw [hlow, hraise]
    exact hexact

theorem bounds (h : IsCorrected x n m) (hlo : -2 ^ 64 < n) (hhi : n < 2 ^ 64) :
    -2 ^ 63 ≤ m ∧ m < 2 ^ 63 := by
  cases h with
  | inRange hlo hhi => exact ⟨hlo, hhi⟩
  | above h | below h => constructor <;> omega

/-- The corrections keep the residue. -/
theorem emod_eq (h : IsCorrected x n m) : m % 2 ^ 64 = n % 2 ^ 64 := by
  cases h with
  | inRange => rfl
  | above => exact Int.sub_emod_right n (2 ^ 64)
  | below => exact Int.add_emod_right n (2 ^ 64)

end IsCorrected

end

/-- The way of a coordinate to a machine integer: its floor `cell` is reduced by the modulus of the
    word size, corrected to `entry` and cast. Every step gives the exact whole number, the last one
    is in the range of machine integers, and the cast keeps it. -/
structure CastsExactly (w : Width) (x : Binary64) (cell entry : Int) : Prop where
  floor : x.finiteOrZero.floor.IsWhole cell
  rest : (w.reduced x).IsWhole (cell.tmod (2 ^ w.bits))
  corrected : IsCorrected (w.reduced x) (cell.tmod (2 ^ w.bits)) entry
  isWhole : (w.machineCell x).IsWhole entry
  lower : -2 ^ 63 ≤ entry
  upper : entry < 2 ^ 63
  cast : (w.machineCell x).toInt64.toInt = entry

/-- The reduction of the floor is exact: the remainder of a quotient that is cut off toward zero. -/
theorem isWhole_reduced (w : Width) {x : Binary64} {u : Int} (h : x.finiteOrZero.units? = some u) :
    (w.reduced x).IsWhole ((u / (unitsPerOne : Int)).tmod (2 ^ w.bits)) := by
  have hpos := unitsPerOne_pos_int
  have hbits : w.bits < 1024 := by cases w <;> decide
  have hmodulus : (2 : Int) ^ w.bits * unitsPerOne ≠ 0 :=
    Int.mul_ne_zero (Int.pow_ne_zero (by decide)) (Int.ne_of_gt hpos)
  have hrest := units?_fmod (units?_floor h) (units?_twoPow hbits) hmodulus
  rw [Int.mul_comm, Int.mul_comm _ (unitsPerOne : Int), Int.mul_tmod_mul_of_pos _ _ hpos,
    Int.mul_comm] at hrest
  exact rational?_eq_intCast.mpr hrest

/-- Every coordinate gets to a machine integer without rounding and without leaving the range. -/
theorem exists_castsExactly (w : Width) {x : Binary64} {u : Int}
    (h : x.finiteOrZero.units? = some u) :
    ∃ entry, w.CastsExactly x (u / (unitsPerOne : Int)) entry := by
  have hfloor : x.finiteOrZero.floor.IsWhole (u / (unitsPerOne : Int)) :=
    rational?_eq_intCast.mpr (units?_floor h)
  have hrest := w.isWhole_reduced h
  generalize u / (unitsPerOne : Int) = cell at hfloor hrest ⊢
  have hpos : (0 : Int) < 2 ^ w.bits := Int.pow_pos (by decide)
  have hsize : (2 : Int) ^ w.bits ≤ 2 ^ 64 := by cases w <;> decide
  have hlo := Int.lt_tmod_of_pos cell hpos
  have hhi := Int.tmod_lt_of_pos cell hpos
  obtain ⟨entry, hcorrected⟩ := exists_isCorrected hrest (by omega) (by omega)
  obtain ⟨hlower, hupper⟩ := hcorrected.bounds (by omega) (by omega)
  have hwhole : (w.machineCell x).IsWhole entry := hcorrected.isWhole hrest
  refine ⟨entry, hfloor, hrest, hcorrected, hwhole, hlower, hupper, ?_⟩
  rw [toInt64_of_isWhole hwhole hlower hupper, Int64.toInt_ofInt_of_le hlower hupper]

theorem modulus_dvd_two_pow (w : Width) : w.modulus ∣ 2 ^ 64 :=
  Nat.pow_dvd_pow 2 (by cases w <;> decide)

/-- What is cast has the residue of the floor. -/
theorem CastsExactly.emod_modulus {w : Width} {x : Binary64} {cell entry : Int}
    (h : w.CastsExactly x cell entry) : entry % (w.modulus : Int) = cell % (w.modulus : Int) := by
  have hdvd : (w.modulus : Int) ∣ 2 ^ 64 := by exact_mod_cast w.modulus_dvd_two_pow
  rw [← Int.emod_emod_of_dvd entry hdvd, h.corrected.emod_eq, Int.emod_emod_of_dvd _ hdvd,
    cast_modulus]
  exact Int.emod_eq_emod_iff_emod_sub_eq_zero.mpr (Int.emod_eq_zero_of_dvd Int.dvd_tmod_sub_self)

/-- A machine integer taken as a word is its residue. -/
theorem toNat_toUInt64 (v : Int64) : v.toUInt64.toNat = (v.toInt % 2 ^ 64).toNat := by
  have hbits : v.toInt = (v.toBitVec.toNat : Int).bmod (2 ^ 64) := v.toBitVec.toInt_eq_toNat_bmod
  have hsmall := v.toBitVec.isLt
  rw [← UInt64.toNat_toBitVec, Int64.toBitVec_toUInt64, hbits, Int.bmod_def]
  omega

theorem toNat_and_mask (w : Width) (word : UInt64) :
    (word &&& UInt64.ofNat w.mask).toNat = word.toNat % w.modulus := by
  have hmask : (UInt64.ofNat w.mask).toNat = w.modulus - 1 := by cases w <;> rfl
  rw [UInt64.toNat_and, hmask]
  exact Nat.and_two_pow_sub_one_eq_mod _ _

/-- The machine word of a coordinate is the word of its cell. -/
theorem toNat_laneWord (w : Width) (x : Binary64) : (w.laneWord x).toNat = w.cellWord x.cell? := by
  unfold laneWord
  by_cases hfinite : x.isFinite = true
  · obtain ⟨u, hu⟩ := isFinite_iff_units?.mp hfinite
    have hsame : x.finiteOrZero = x := if_pos hfinite
    obtain ⟨entry, hcasts⟩ := w.exists_castsExactly (by rw [hsame, hu])
    have hresidue := hcasts.emod_modulus
    rw [if_pos hfinite, toNat_and_mask, toNat_toUInt64, hcasts.cast, cell?_of_units? hu]
    simp only [cellWord, residue, ← hresidue]
    cases w <;> simp only [modulus, bits] <;> omega
  · have hnone := (cell?_eq_none_iff x).mpr (by simpa using hfinite)
    rw [if_neg hfinite, hnone]
    cases w <;> rfl

/-- The wrapping product of machine words is the product in words of the size. -/
theorem toNat_laneHash (w : Width) (x : Binary64) : (w.laneHash x).toNat = w.cellHash x.cell? := by
  have hmultiplier : (UInt64.ofNat w.multiplier).toNat = w.multiplier := by cases w <;> rfl
  rw [laneHash, toNat_and_mask, UInt64.toNat_mul, hmultiplier, toNat_laneWord,
    Nat.mod_mod_of_dvd _ w.modulus_dvd_two_pow, Nat.mul_comm]
  rfl

theorem toNat_count {count : Nat} (h : count < 64) : (UInt64.ofNat count).toNat = count :=
  UInt64.toNat_ofNat_of_lt' (Nat.lt_trans h (by decide))

theorem toNat_moveUp {word : UInt64} {count : Nat} (h : count < 64) :
    (moveUp word count).toNat = word.toNat * 2 ^ count % 2 ^ 64 := by
  rw [moveUp, if_pos h, UInt64.toNat_shiftLeft, toNat_count h, Nat.mod_eq_of_lt h, Nat.shiftLeft_eq]

theorem toNat_moveDown {word : UInt64} {count : Nat} (h : count < 64) :
    (moveDown word count).toNat = word.toNat / 2 ^ count := by
  rw [moveDown, if_pos h, UInt64.toNat_shiftRight, toNat_count h, Nat.mod_eq_of_lt h,
    Nat.shiftRight_eq_div_pow]

/-- The machine word of a coordinate on an axis is the word of its cell there, for every amount of
    rotation. -/
theorem toNat_laneAxisWord (w : Width) (amount : Int) (x : Binary64) :
    ((w.laneAxisWord amount x).toNat : Int) = w.axisWord x.cell? amount := by
  have hturn := w.turn_lt amount
  have hbits : w.bits ≤ 64 := by cases w <;> decide
  have hhash := toNat_laneHash w x
  have hlt : w.cellHash x.cell? < w.modulus := w.spread_lt _
  rw [axisWord, w.rotateLeft_of_lt hlt]
  simp only [laneAxisWord]
  by_cases hzero : w.turn amount = 0
  · rw [if_pos hzero, if_pos hzero, hhash]
  · rw [if_neg hzero, if_neg hzero, laneTurn, UInt64.toNat_or, toNat_and_mask,
      toNat_moveUp (by omega), toNat_moveDown (by omega), hhash,
      Nat.mod_mod_of_dvd _ w.modulus_dvd_two_pow]

end Width

end CellKeys
