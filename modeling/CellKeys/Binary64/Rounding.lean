import CellKeys.Power

namespace CellKeys.Binary64

/-- Bits of precision of a full-length magnitude. -/
def precision : Nat := 53

/-- Magnitudes of this many units and more are too large for the format. -/
def unitLimit : Nat := 2 ^ 2098

/-- Number of units in the magnitude one. -/
def unitsPerOne : Nat := 2 ^ 1074

/-- How many low bits of a magnitude of this size are below the grid. -/
def spacing (units : Nat) : Nat := units.log2 - (precision - 1)

/-- A magnitude on the grid of finite values: small enough, and with no bits below its spacing. -/
def Representable (units : Nat) : Prop := units < unitLimit ∧ 2 ^ spacing units ∣ units

instance (units : Nat) : Decidable (Representable units) := inferInstanceAs (Decidable (_ ∧ _))

/-- The integer nearest to a ratio with positive denominator, an exact half going to the even one.
    -/
def nearestEven (num den : Nat) : Nat :=
  let low := num / den
  let rest := 2 * (num % den)
  if rest < den ∨ rest = den ∧ low % 2 = 0 then low else low + 1

/-- The magnitude on the grid nearest to a ratio of units, without regard to the size limit. -/
def nearest (num den : Nat) : Nat :=
  let step := 2 ^ spacing (num / den)
  nearestEven num (den * step) * step

theorem unitLimit_pos : 0 < unitLimit := by
  unfold unitLimit
  generalize 2098 = exponent
  exact Nat.two_pow_pos exponent

theorem representable_zero : Representable 0 := ⟨unitLimit_pos, Nat.dvd_zero _⟩

theorem nearestEven_le_succ (num den : Nat) : nearestEven num den ≤ num / den + 1 := by
  unfold nearestEven
  dsimp only
  split <;> omega

theorem le_nearestEven (num den : Nat) : num / den ≤ nearestEven num den := by
  unfold nearestEven
  dsimp only
  split <;> omega

/-- A number of at most 53 bits times a power of two has no bits below its spacing. -/
theorem two_pow_spacing_dvd {m : Nat} (k : Nat) (hm : m ≤ 2 ^ precision) :
    2 ^ spacing (m * 2 ^ k) ∣ m * 2 ^ k := by
  by_cases hzero : m = 0
  · simp [hzero]
  have hsize : (m * 2 ^ k).log2 = m.log2 + k := by
    rw [Nat.log2_eq_iff (Nat.mul_ne_zero hzero (Nat.ne_of_gt (Nat.two_pow_pos k)))]
    have hlo := Nat.log2_self_le hzero
    have hhi := @Nat.lt_log2_self m
    constructor
    · rw [Nat.pow_add]
      exact Nat.mul_le_mul_right _ hlo
    · rw [show m.log2 + k + 1 = m.log2 + 1 + k by omega, Nat.pow_add]
      exact Nat.mul_lt_mul_of_pos_right hhi (Nat.two_pow_pos k)
  unfold spacing
  rw [hsize]
  rcases Nat.lt_or_eq_of_le hm with hlt | rfl
  · have : m.log2 < precision := (Nat.log2_lt hzero).mpr hlt
    have hle : m.log2 + k - (precision - 1) ≤ k := by omega
    exact Nat.dvd_trans (Nat.pow_dvd_pow 2 hle) (Nat.dvd_mul_left _ _)
  · rw [← Nat.pow_add, Nat.log2_two_pow]
    exact Nat.pow_dvd_pow 2 (by omega)

/-- Rounding lands on the grid. -/
theorem two_pow_spacing_dvd_nearest (num den : Nat) :
    2 ^ spacing (nearest num den) ∣ nearest num den := by
  unfold nearest
  refine two_pow_spacing_dvd _ ?_
  refine Nat.le_trans (nearestEven_le_succ _ _) ?_
  rw [← Nat.div_div_eq_div_mul]
  have hhi := @Nat.lt_log2_self (num / den)
  have hdiv : num / den / 2 ^ spacing (num / den) < 2 ^ precision := by
    rw [Nat.div_lt_iff_lt_mul (Nat.two_pow_pos _), ← Nat.pow_add]
    refine Nat.lt_of_lt_of_le hhi (Nat.pow_le_pow_right (by decide) ?_)
    unfold spacing precision
    omega
  omega

theorem representable_nearest {num den : Nat} (h : nearest num den < unitLimit) :
    Representable (nearest num den) :=
  ⟨h, two_pow_spacing_dvd_nearest num den⟩

/-- A magnitude already on the grid rounds to itself. -/
theorem nearest_one_of_dvd {units : Nat} (h : 2 ^ spacing units ∣ units) :
    nearest units 1 = units := by
  obtain ⟨m, hm⟩ := h
  unfold nearest
  simp only [Nat.div_one, Nat.one_mul]
  have hpos := Nat.two_pow_pos (spacing units)
  have hdiv : units / 2 ^ spacing units = m := by
    conv => lhs; lhs; rw [hm]
    exact Nat.mul_div_cancel_left _ hpos
  have hmod : units % 2 ^ spacing units = 0 := by
    conv => lhs; lhs; rw [hm]
    exact Nat.mul_mod_right _ _
  rw [nearestEven, hdiv, hmod]
  simp only [Nat.mul_zero, hpos, true_or, if_true]
  rw [Nat.mul_comm]
  exact hm.symm

end CellKeys.Binary64
