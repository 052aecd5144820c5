import CellKeys.Binary64.Rounding

namespace CellKeys.Binary64

/-- The exponent of one and of the size limit, as names: powers this high are never computed. -/
theorem exists_unitsPerOne : ∃ e, e = 1074 ∧ unitsPerOne = 2 ^ e := by
  refine ⟨_, rfl, ?_⟩
  unfold unitsPerOne
  generalize 1074 = e
  rfl

theorem exists_unitLimit : ∃ e, e = 2098 ∧ unitLimit = 2 ^ e := by
  refine ⟨_, rfl, ?_⟩
  unfold unitLimit
  generalize 2098 = e
  rfl

theorem unitsPerOne_pos : 0 < unitsPerOne := by
  obtain ⟨e, -, he⟩ := exists_unitsPerOne
  rw [he]
  exact Nat.two_pow_pos e

theorem unitsPerOne_pos_int : (0 : Int) < unitsPerOne := Int.natCast_pos.mpr unitsPerOne_pos

theorem spacing_le_spacing {a b : Nat} (h : a ≤ b) : spacing a ≤ spacing b := by
  by_cases hzero : a = 0
  · simp [hzero, spacing]
  have hb : b ≠ 0 := by omega
  have hlog : a.log2 ≤ b.log2 := (Nat.le_log2 hb).mpr (Nat.le_trans (Nat.log2_self_le hzero) h)
  unfold spacing
  omega

/-- A magnitude on the grid has no bits below the spacing of any smaller one. -/
theorem Representable.dvd_of_le {a b : Nat} (hb : Representable b) (h : a ≤ b) :
    2 ^ spacing a ∣ b :=
  Nat.dvd_trans (Nat.pow_dvd_pow 2 (spacing_le_spacing h)) hb.2

theorem Representable.of_dvd {a b : Nat} (hb : Representable b) (hle : a ≤ b)
    (hdvd : 2 ^ spacing b ∣ a) : Representable a :=
  ⟨Nat.lt_of_le_of_lt hle hb.1,
    Nat.dvd_trans (Nat.pow_dvd_pow 2 (spacing_le_spacing hle)) hdvd⟩

/-- The remainder of two magnitudes on the grid is on the grid, whatever their sizes. -/
theorem Representable.mod {a b : Nat} (ha : Representable a) (hb : Representable b) :
    Representable (a % b) := by
  rcases Nat.lt_or_ge a b with hlt | hge
  · rw [Nat.mod_eq_of_lt hlt]
    exact ha
  by_cases hzero : b = 0
  · rw [hzero, Nat.mod_zero]
    exact ha
  have hle : a % b ≤ b := Nat.le_of_lt (Nat.mod_lt a (by omega))
  exact hb.of_dvd hle ((Nat.dvd_mod_iff hb.2).mpr (ha.dvd_of_le hge))

/-- The difference of two magnitudes on the grid is on the grid if neither is more than twice the
    other. -/
theorem Representable.sub {a b : Nat} (ha : Representable a) (hb : Representable b) (hle : a ≤ b)
    (htwice : b ≤ 2 * a) : Representable (b - a) :=
  ha.of_dvd (by omega) (Nat.dvd_sub (hb.dvd_of_le hle) ha.2)

/-- Rounding a number of units at most doubles it. -/
theorem nearest_one_le (units : Nat) : nearest units 1 ≤ 2 * units := by
  by_cases hzero : units = 0
  · subst hzero
    exact Nat.le_of_eq (nearest_one_of_dvd (Nat.dvd_zero _))
  have hstep : 2 ^ spacing units ≤ units :=
    Nat.le_trans (Nat.pow_le_pow_right (by decide) (Nat.sub_le _ _)) (Nat.log2_self_le hzero)
  simp only [nearest, Nat.div_one, Nat.one_mul]
  calc nearestEven units (2 ^ spacing units) * 2 ^ spacing units
      ≤ (units / 2 ^ spacing units + 1) * 2 ^ spacing units :=
        Nat.mul_le_mul_right _ (nearestEven_le_succ _ _)
    _ = units / 2 ^ spacing units * 2 ^ spacing units + 2 ^ spacing units := Nat.succ_mul _ _
    _ ≤ units + units := Nat.add_le_add (Nat.div_mul_le_self _ _) hstep
    _ = 2 * units := (Nat.two_mul units).symm

/-- A whole number of at most 53 bits is on the grid. -/
theorem representable_mul_unitsPerOne {n : Nat} (hn : n ≤ 2 ^ precision) :
    Representable (n * unitsPerOne) := by
  obtain ⟨e, he, hone⟩ := exists_unitsPerOne
  obtain ⟨l, hl, hlimit⟩ := exists_unitLimit
  rw [hone]
  refine ⟨?_, two_pow_spacing_dvd e hn⟩
  rw [hlimit]
  calc n * 2 ^ e ≤ 2 ^ precision * 2 ^ e := Nat.mul_le_mul_right _ hn
    _ = 2 ^ (precision + e) := (Nat.pow_add 2 precision e).symm
    _ < 2 ^ l := Nat.pow_lt_pow_right (by decide) (by unfold precision; omega)

/-- A magnitude on the grid that has more than 53 bits before the point has none behind it. -/
theorem Representable.unitsPerOne_dvd {a : Nat} (ha : Representable a)
    (hlarge : 2 ^ precision * unitsPerOne ≤ a) : unitsPerOne ∣ a := by
  obtain ⟨e, -, hone⟩ := exists_unitsPerOne
  rw [hone] at hlarge ⊢
  have hspacing : e ≤ spacing (2 ^ precision * 2 ^ e) := by
    rw [← Nat.pow_add]
    unfold spacing precision
    rw [Nat.log2_two_pow]
    omega
  exact Nat.dvd_trans (Nat.pow_dvd_pow 2 hspacing) (ha.dvd_of_le hlarge)

/-- Rounding an exact number of units down to a whole number stays on the grid. -/
theorem Representable.floor {u : Int} (hu : Representable u.natAbs) :
    Representable (u / (unitsPerOne : Int) * unitsPerOne).natAbs := by
  have hpos := unitsPerOne_pos_int
  rw [Int.natAbs_mul, Int.natAbs_natCast]
  rcases Nat.lt_or_ge u.natAbs (2 ^ precision * unitsPerOne) with hsmall | hlarge
  · apply representable_mul_unitsPerOne
    have hbound : -(2 ^ precision : Int) * unitsPerOne ≤ u ∧
        u < (2 ^ precision : Int) * unitsPerOne := by
      have hcast : ((2 ^ precision * unitsPerOne : Nat) : Int) =
          (2 ^ precision : Int) * unitsPerOne := by push_cast; rfl
      rw [Int.neg_mul, ← hcast]
      omega
    have hlo := (Int.le_ediv_iff_mul_le hpos).mpr hbound.1
    have hhi := (Int.ediv_lt_iff_lt_mul hpos).mpr hbound.2
    have hcast : ((2 ^ precision : Nat) : Int) = (2 ^ precision : Int) := by push_cast; rfl
    omega
  · have hdvd : (unitsPerOne : Int) ∣ u := Int.ofNat_dvd_left.mpr (hu.unitsPerOne_dvd hlarge)
    have heq := congrArg Int.natAbs (Int.ediv_mul_cancel hdvd)
    rw [Int.natAbs_mul, Int.natAbs_natCast] at heq
    rw [heq]
    exact hu

end CellKeys.Binary64
