import CellKeys.Proofs.Binary64.Fraction
import CellKeys.Proofs.Binary64.Monotone
import CellKeys.Proofs.Key.State

namespace CellKeys

open Binary64 Value

namespace Value

/-- A value that is a finite binary64 number and stands for this fraction. -/
def StandsFor (v : Value) (x : Binary64) (q : ℚ) : Prop :=
  v.IsBinary64 x ∧ (Number.float x).rational? = some q

/-- A coordinate lies in this cell of an axis: its quotient by the cell size floors to it. -/
def LiesIn (v size : Value) (cell : Int) : Prop :=
  ∃ quotient, quantize v size = .ok quotient ∧ quotient.cell = .ok (some cell)

theorem liesIn_iff {v size : Value} {x r : Binary64} (hv : v.IsBinary64 x) (hs : size.IsBinary64 r)
    {cell : Int} : v.LiesIn size cell ↔ cellOf x r = some cell := by
  obtain ⟨q, hq, hquotient⟩ := quantize_isBinary64 hv hs
  rw [cellOf_eq]
  constructor
  · rintro ⟨other, hother, hcell⟩
    cases hq.symm.trans hother
    rw [hquotient.cell, Except.ok.injEq] at hcell
    exact hcell
  · intro hcell
    exact ⟨q, hq, by rw [hquotient.cell, hcell]⟩

theorem quantize_standsFor_iff {v size : Value} {x r : Binary64} (hv : v.IsBinary64 x)
    (hs : size.IsBinary64 r) {q : ℚ} :
    (∃ quotient, quantize v size = .ok quotient ∧ quotient.StandsFor (x.div r) q) ↔
      (Number.float (x.div r)).rational? = some q := by
  obtain ⟨quotient, hquotient, hdiv⟩ := quantize_isBinary64 hv hs
  constructor
  · rintro ⟨-, -, -, hq⟩
    exact hq
  · intro hq
    exact ⟨quotient, hquotient, hdiv, hq⟩

end Value

section

variable {r : Binary64} {den : Nat} (hr : r.units? = some (den : Int)) (hden : 0 < den)

include hr hden

/-- The cell index is the floor of the quotient after rounding. -/
theorem cellOf_eq_some_iff {x : Binary64} {u b : Int} (hx : x.units? = some u) :
    cellOf x r = some b ↔
      (quotientUnits u den).natAbs < unitLimit ∧ quotientUnits u den / (unitsPerOne : Int) = b := by
  have hdiv := units?_div hden hx hr
  rw [cellOf_eq]
  by_cases hsmall : (quotientUnits u den).natAbs < unitLimit
  · rw [if_pos hsmall] at hdiv
    rw [cell?_of_units? hdiv, Option.some.injEq]
    exact ⟨fun h => ⟨hsmall, h⟩, And.right⟩
  · rw [if_neg hsmall] at hdiv
    have hnone : (x.div r).cell? = Option.none := by
      rw [cell?_eq_none_iff, ← Bool.not_eq_true, isFinite_iff_units?, hdiv]
      nofun
    rw [hnone]
    exact ⟨nofun, fun h => absurd h.1 hsmall⟩

/-- A greater coordinate does not lie in a cell of smaller index. -/
theorem cell_le_of_le {x y : Binary64} {u v b c : Int} (hx : x.units? = some u)
    (hy : y.units? = some v) (h : u ≤ v) (hb : cellOf x r = some b) (hc : cellOf y r = some c) :
    b ≤ c := by
  obtain ⟨-, rfl⟩ := (cellOf_eq_some_iff hr hden hx).mp hb
  obtain ⟨-, rfl⟩ := (cellOf_eq_some_iff hr hden hy).mp hc
  exact Int.ediv_le_ediv unitsPerOne_pos_int (quotientUnits_mono hden h)

/-- What lies between two coordinates of one cell lies in that cell. -/
theorem cellOf_between {x y z : Binary64} {u v m b : Int} (hx : x.units? = some u)
    (hy : y.units? = some v) (hz : z.units? = some m) (hlo : u ≤ m) (hhi : m ≤ v)
    (hxb : cellOf x r = some b) (hyb : cellOf y r = some b) : cellOf z r = some b := by
  obtain ⟨hxsmall, -⟩ := (cellOf_eq_some_iff hr hden hx).mp hxb
  obtain ⟨hysmall, -⟩ := (cellOf_eq_some_iff hr hden hy).mp hyb
  have hle := quotientUnits_mono hden hlo
  have hge := quotientUnits_mono hden hhi
  have hzc := (cellOf_eq_some_iff hr hden hz).mpr ⟨by omega, rfl⟩
  rw [hzc, Option.some.injEq]
  exact Int.le_antisymm (cell_le_of_le hr hden hz hy hhi hzc hyb)
    (cell_le_of_le hr hden hx hz hlo hxb hzc)

/-- Below the precision the cell index is that of the exact quotient, unless the quotient is rounded
    up to the next integer, which no integer is. -/
theorem cellOf_near {x : Binary64} {u : Int} (hx : x.units? = some u)
    (hsmall : u.natAbs < 2 ^ precision * den) :
    ∃ b, cellOf x r = some b ∧ (b = u / den ∨ b = u / den + 1) ∧
      (b = u / den + 1 ↔
        ¬ (den : Int) ∣ u ∧ (x.div r).units? = some ((u / den + 1) * unitsPerOne)) := by
  have hone := unitsPerOne_pos_int
  obtain ⟨hlimit, hlo, hhi⟩ := quotientUnits_near hden hsmall
  have hdiv := units?_div hden hx hr
  rw [if_pos hlimit] at hdiv
  have hfloor := (Int.le_ediv_iff_mul_le hone).mpr hlo
  have hceil : quotientUnits u den / (unitsPerOne : Int) ≤ u / den + 1 := by
    have hle := Int.ediv_le_ediv hone hhi
    rwa [Int.mul_ediv_cancel _ (Int.ne_of_gt hone)] at hle
  refine ⟨_, (cellOf_eq_some_iff hr hden hx).mpr ⟨hlimit, rfl⟩, by omega, ?_⟩
  rw [hdiv, Option.some.injEq]
  constructor
  · intro hnext
    have hreached : quotientUnits u den = (u / den + 1) * unitsPerOne :=
      Int.le_antisymm hhi ((Int.le_ediv_iff_mul_le hone).mp (Int.le_of_eq hnext.symm))
    refine ⟨?_, hreached⟩
    rintro ⟨k, rfl⟩
    have hk : k.natAbs < 2 ^ precision := by
      rw [Int.natAbs_mul, Int.natAbs_natCast, Nat.mul_comm] at hsmall
      exact Nat.lt_of_mul_lt_mul_right hsmall
    have hexact := quotientUnits_mul hden (Nat.le_of_lt hk)
    rw [Int.mul_comm k, hreached, Int.mul_ediv_cancel_left k (by omega)] at hexact
    have hsame := Int.eq_of_mul_eq_mul_right (Int.ne_of_gt hone) hexact
    omega
  · rintro ⟨-, hreached⟩
    rw [hreached, Int.mul_ediv_cancel _ (Int.ne_of_gt hone)]

end

/-- A positive fraction that a binary64 number stands for is a positive number of units. -/
theorem exists_units_of_pos {r : Binary64} {s : ℚ} (hr : (Number.float r).rational? = some s)
    (hpos : 0 < s) :
    ∃ den : Nat, 0 < den ∧ r.units? = some (den : Int) ∧ s = den / (unitsPerOne : ℚ) := by
  obtain ⟨n, hn, rfl⟩ := rational?_eq_some.mp hr
  have hone : (0 : ℚ) < unitsPerOne := by exact_mod_cast unitsPerOne_pos
  rw [div_pos_iff_of_pos_right hone, Int.cast_pos] at hpos
  lift n to ℕ using Int.le_of_lt hpos
  exact ⟨n, by exact_mod_cast hpos, hn, by push_cast; rfl⟩

theorem exists_cellOf {x r : Binary64} (h : (x.div r).isFinite = true) :
    ∃ b, cellOf x r = some b := by
  rw [cellOf_eq, ← Option.ne_none_iff_exists', ne_eq, cell?_eq_none_iff, h]
  nofun

/-- A ratio of integers is its floor just where the division leaves no rest. -/
theorem div_eq_floor_iff {u : ℤ} {den : ℕ} (hden : 0 < den) :
    (u : ℚ) / den = (⌊(u : ℚ) / den⌋ : ℤ) ↔ (den : ℤ) ∣ u := by
  have hne : (den : ℚ) ≠ 0 := by exact_mod_cast Nat.ne_of_gt hden
  rw [Rat.floor_intCast_div_natCast, div_eq_iff hne]
  constructor
  · intro h
    exact ⟨u / den, by rw [Int.mul_comm]; exact_mod_cast h⟩
  · intro h
    exact_mod_cast (Int.ediv_mul_cancel h).symm

theorem natAbs_lt_of_abs_div_lt {u : ℤ} {den : ℕ} (hden : 0 < den)
    (h : |(u : ℚ) / den| < 2 ^ 53) : u.natAbs < 2 ^ precision * den := by
  have hpos : (0 : ℚ) < den := by exact_mod_cast hden
  rw [abs_div, abs_of_pos hpos, div_lt_iff₀ hpos] at h
  zify
  exact_mod_cast h

/-- For every positive cell size the cell index never decreases along an axis, where quotients are
    finite. So a coordinate may be replaced by any other between two of one cell without a change of
    the key. Where the exact quotient is below the precision, the index is its floor, or the next
    integer if the quotient is none itself and is rounded to it. -/
theorem cells_are_intervals {size : Value} {r : Binary64} {s : ℚ} (hs : size.StandsFor r s)
    (hpos : 0 < s) :
    (∀ (u v : Value) (x y : Binary64) (p q : ℚ), u.StandsFor x p → v.StandsFor y q → p ≤ q →
      (x.div r).isFinite = true → (y.div r).isFinite = true →
      ∃ b c, u.LiesIn size b ∧ v.LiesIn size c ∧ b ≤ c) ∧
    (∀ (u v t : Value) (x y z : Binary64) (p q m : ℚ) (b : Int), u.StandsFor x p →
      v.StandsFor y q → t.StandsFor z m → p ≤ m → m ≤ q → u.LiesIn size b → v.LiesIn size b →
      ∀ (w : Width) (values others resolution : Value) (xs divs : List Binary64) (i : Nat),
        values.IsVector xs → others.IsVector (xs.set i z) → resolution.IsVector divs →
        xs[i]? = some x → divs[i]? = some r →
        keyOfState w others resolution = keyOfState w values resolution) ∧
    ∀ (u : Value) (x : Binary64) (p : ℚ), u.StandsFor x p → |p / s| < 2 ^ 53 →
      ∃ b, u.LiesIn size b ∧ (b = ⌊p / s⌋ ∨ b = ⌊p / s⌋ + 1) ∧
        (b = ⌊p / s⌋ + 1 ↔ p / s ≠ ⌊p / s⌋ ∧
          ∃ quotient, quantize u size = .ok quotient ∧
            quotient.StandsFor (x.div r) (⌊p / s⌋ + 1)) := by
  obtain ⟨hsize, hvalue⟩ := hs
  obtain ⟨den, hden, hr, rfl⟩ := exists_units_of_pos hvalue hpos
  have hone : (0 : ℚ) < unitsPerOne := by exact_mod_cast unitsPerOne_pos
  have horder : ∀ {k l : ℤ}, (k : ℚ) / unitsPerOne ≤ l / unitsPerOne → k ≤ l := by
    intro k l h
    rw [div_le_div_iff_of_pos_right hone] at h
    exact_mod_cast h
  refine ⟨?_, ?_, ?_⟩
  · rintro u v x y p q ⟨hu, hp⟩ ⟨hv, hq⟩ hle hxfinite hyfinite
    obtain ⟨k, hx, rfl⟩ := rational?_eq_some.mp hp
    obtain ⟨l, hy, rfl⟩ := rational?_eq_some.mp hq
    obtain ⟨b, hb⟩ := exists_cellOf hxfinite
    obtain ⟨c, hc⟩ := exists_cellOf hyfinite
    exact ⟨b, c, (liesIn_iff hu hsize).mpr hb, (liesIn_iff hv hsize).mpr hc,
      cell_le_of_le hr hden hx hy (horder hle) hb hc⟩
  · rintro u v t x y z p q m b ⟨hu, hp⟩ ⟨hv, hq⟩ ⟨ht, hm⟩ hlo hhi hub hvb w values others resolution
      xs divs i hxs hzs hdivs hxi hri
    obtain ⟨k, hx, rfl⟩ := rational?_eq_some.mp hp
    obtain ⟨l, hy, rfl⟩ := rational?_eq_some.mp hq
    obtain ⟨n, hz, rfl⟩ := rational?_eq_some.mp hm
    rw [liesIn_iff hu hsize] at hub
    rw [liesIn_iff hv hsize] at hvb
    have hcell := cellOf_between hr hden hx hy hz (horder hlo) (horder hhi) hub hvb
    exact keyOfState_congr w hxs hzs hdivs List.length_set
      (cellsOf_set_same hxi hri (hcell.trans hub.symm))
  · rintro u x p ⟨hu, hp⟩ hsmall
    obtain ⟨k, hx, rfl⟩ := rational?_eq_some.mp hp
    rw [div_div_div_cancel_right₀ (ne_of_gt hone)] at hsmall ⊢
    obtain ⟨b, hb, hnext, hreached⟩ := cellOf_near hr hden hx (natAbs_lt_of_abs_div_lt hden hsmall)
    refine ⟨b, (liesIn_iff hu hsize).mpr hb, ?_⟩
    rw [quantize_standsFor_iff hu hsize, ne_eq, div_eq_floor_iff hden,
      Rat.floor_intCast_div_natCast]
    refine ⟨hnext, hreached.trans (and_congr_right fun _ => ?_)⟩
    rw [← rational?_eq_intCast]
    push_cast
    rfl

/-- A half lies in the sixth cell of a tenth, because the quotient, just below five, is rounded to
    five. -/
theorem cells_are_intervals_tenth :
    let tenth := Value.float (.ofBits 0x3fb999999999999a) none
    let half := Value.float (.ofBits 0x3fe0000000000000) none
    ∃ s p : ℚ, tenth.StandsFor (.ofBits 0x3fb999999999999a) s ∧ 0 < s ∧
      half.StandsFor (.ofBits 0x3fe0000000000000) p ∧ |p / s| < 2 ^ 53 ∧ ⌊p / s⌋ = 4 ∧
      half.LiesIn tenth 5 := by
  intro tenth half
  have htenth : tenth.StandsFor (.ofBits 0x3fb999999999999a)
      (3602879701896397 / 36028797018963968) := ⟨.float _ _, by decide +kernel⟩
  have hhalf : half.StandsFor (.ofBits 0x3fe0000000000000) (1 / 2) :=
    ⟨.float _ _, by decide +kernel⟩
  have hfloor : ⌊(1 / 2 : ℚ) / (3602879701896397 / 36028797018963968)⌋ = 4 := by decide +kernel
  have hsmall : |(1 / 2 : ℚ) / (3602879701896397 / 36028797018963968)| < 2 ^ 53 := by decide +kernel
  obtain ⟨-, -, hnear⟩ := cells_are_intervals htenth (by decide +kernel)
  obtain ⟨b, hb, -, hnext⟩ := hnear half _ _ hhalf hsmall
  have hfive : b = 5 := by
    rw [hfloor] at hnext
    refine hnext.mpr ⟨by decide +kernel, (quantize_standsFor_iff hhalf.1 htenth.1).mpr ?_⟩
    decide +kernel
  rw [hfive] at hb
  exact ⟨_, _, htenth, by decide +kernel, hhalf, hsmall, hfloor, hb⟩

end CellKeys
