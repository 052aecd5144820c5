import CellKeys.Proofs.Axis.Lane
import CellKeys.Proofs.Key.Cells

namespace CellKeys

open Binary64

namespace Width

/-- For both word sizes and every coordinate, also one that is infinite or NaN, the value that is
    cast to a machine integer is a whole number in the range of machine integers, and the cast keeps
    it. The floor, its reduction by the modulus and a correction by 2^64 are exact, and at most one
    correction is made. The word is the exact floor modulo the number of words, and the top bit
    alone for an infinity or a NaN. -/
theorem machine_cells_exact (w : Width) (x : Binary64) :
    ∃ cell entry : ℤ, w.CastsExactly x cell entry ∧
      (∀ q : ℚ, (Number.float x).rational? = some q →
        cell = ⌊q⌋ ∧ ((w.laneWord x).toNat : ℤ) = ⌊q⌋ % 2 ^ w.bits) ∧
      (x.isFinite = false → cell = 0 ∧ (w.laneWord x).toNat = 2 ^ (w.bits - 1)) := by
  obtain ⟨u, hu⟩ := x.exists_units?_finiteOrZero
  obtain ⟨entry, hcasts⟩ := w.exists_castsExactly hu
  refine ⟨_, entry, hcasts, ?_, ?_⟩
  · intro q hq
    obtain ⟨v, hv, -⟩ := rational?_eq_some.mp hq
    have hsame : x.finiteOrZero = x := if_pos (isFinite_iff_units?.mpr ⟨v, hv⟩)
    have hcell := x.cell?_eq_floor
    rw [hq, Option.map_some] at hcell
    rw [hsame] at hu
    refine ⟨Option.some.inj ((cell?_of_units? hu).symm.trans hcell), ?_⟩
    rw [toNat_laneWord, hcell]
    exact w.natCast_residue ⌊q⌋
  · -- Zero goes the same way in place of the coordinate, and only the word tells them apart.
    intro hfinite
    have hzero : x.finiteOrZero = .zero false := if_neg (by rw [hfinite]; decide)
    rw [hzero] at hu
    cases hu
    constructor
    · exact Int.zero_ediv _
    · rw [toNat_laneWord, (cell?_eq_none_iff x).mpr hfinite]
      rfl

/-- The value next to -2^64 is raised to a positive machine integer, and a NaN has the top bit of a
    narrow word. -/
theorem machine_cells_exact_below :
    let x := Binary64.ofInt (2 ^ 11 - 2 ^ 64)
    (Number.float x).rational? = some ((2 ^ 11 - 2 ^ 64 : ℤ) : ℚ) ∧ Binary64.nan.isFinite = false ∧
      Width.w64.CastsExactly x (2 ^ 11 - 2 ^ 64) (2 ^ 11) ∧
      ((Width.w64.laneWord x).toNat : ℤ) = 2 ^ 11 ∧ (Width.w32.laneWord .nan).toNat = 2 ^ 31 := by
  intro x
  have hx : (Number.float x).rational? = some ((2 ^ 11 - 2 ^ 64 : ℤ) : ℚ) :=
    rational?_eq_intCast.mpr (units?_ofInt (by decide +kernel))
  obtain ⟨cell, entry, hcasts, hvalue, -⟩ := machine_cells_exact .w64 x
  obtain ⟨_, _, -, -, hnan⟩ := machine_cells_exact .w32 .nan
  obtain ⟨rfl, hword⟩ := hvalue _ hx
  rw [Int.floor_intCast] at hcasts hword
  have hentry : entry = 2 ^ 11 := by
    cases hcasts.corrected with
    | inRange hlo => exact absurd hlo (by decide)
    | above h => exact absurd h (by decide)
    | below => decide
  subst hentry
  exact ⟨hx, rfl, hcasts, hword, (hnan rfl).2⟩

end Width

end CellKeys
