import CellKeys.Proofs.Binary64.Exact

namespace CellKeys.Binary64

theorem nearestEven_cases (num den : Nat) :
    nearestEven num den = num / den ∧
        (2 * (num % den) < den ∨ 2 * (num % den) = den ∧ num / den % 2 = 0) ∨
      nearestEven num den = num / den + 1 ∧
        (den < 2 * (num % den) ∨ 2 * (num % den) = den ∧ num / den % 2 = 1) := by
  unfold nearestEven
  dsimp only
  split <;> omega

/-- A greater numerator is not rounded to a smaller integer. -/
theorem nearestEven_mono {m n : Nat} (den : Nat) (h : m ≤ n) :
    nearestEven m den ≤ nearestEven n den := by
  have hlow : m / den ≤ n / den := Nat.div_le_div_right h
  rcases Nat.lt_or_eq_of_le hlow with hlt | heq
  · calc nearestEven m den ≤ m / den + 1 := nearestEven_le_succ m den
      _ ≤ n / den := hlt
      _ ≤ nearestEven n den := le_nearestEven n den
  · -- Above one floor the rests are in the order of the numerators.
    have hm := Nat.div_add_mod m den
    have hn := Nat.div_add_mod n den
    have hmcases := nearestEven_cases m den
    have hncases := nearestEven_cases n den
    rw [heq] at hm hmcases
    omega

/-- Where the grid gets coarser there is a power of two, which is on both grids. -/
theorem two_pow_le_of_spacing_lt {a b : Nat} (h : spacing a < spacing b) :
    a < 2 ^ b.log2 ∧ 2 ^ b.log2 ≤ b ∧ 2 ^ spacing b ∣ 2 ^ b.log2 := by
  have hlog : a.log2 < b.log2 := by
    unfold spacing at h
    omega
  have hb : b ≠ 0 := by
    rintro rfl
    simp at hlog
  refine ⟨?_, Nat.log2_self_le hb, Nat.pow_dvd_pow 2 (Nat.sub_le _ _)⟩
  calc a < 2 ^ (a.log2 + 1) := Nat.lt_log2_self
    _ ≤ 2 ^ b.log2 := Nat.pow_le_pow_right (by decide) hlog

section

variable (num : Nat) {den : Nat} (hden : 0 < den)

include hden

/-- Between the two multiples of the step next to a ratio there is no magnitude on the grid. -/
theorem grid_gap {g step : Nat} (hg : 2 ^ spacing g ∣ g) (hstep : step = 2 ^ spacing (num / den)) :
    g ≤ num / (den * step) * step ∨ (num / (den * step) + 1) * step ≤ g := by
  have hpos : 0 < den * step := by
    rw [hstep]
    exact Nat.mul_pos hden (Nat.two_pow_pos _)
  have hbelow : ∀ k, step ∣ k → k * den ≤ num → k ≤ num / (den * step) * step := by
    rintro _ ⟨k, rfl⟩ hle
    have hquotient : k * (den * step) ≤ num := by
      calc k * (den * step) = step * k * den := by ac_rfl
        _ ≤ num := hle
    rw [Nat.mul_comm step]
    exact Nat.mul_le_mul_right _ ((Nat.le_div_iff_mul_le hpos).mpr hquotient)
  rcases Nat.lt_or_ge num (g * den) with habove | hle
  · right
    have hfloor : num / den ≤ g := Nat.div_le_of_le_mul (by rw [Nat.mul_comm]; omega)
    obtain ⟨k, rfl⟩ := Nat.dvd_trans (Nat.pow_dvd_pow 2 (spacing_le_spacing hfloor)) hg
    have hquotient : num < k * (den * step) := by
      calc num < 2 ^ spacing (num / den) * k * den := habove
        _ = k * (den * step) := by rw [← hstep]; ac_rfl
    rw [← hstep, Nat.mul_comm step]
    exact Nat.mul_le_mul_right _ ((Nat.div_lt_iff_lt_mul hpos).mpr hquotient)
  · left
    have hfloor : g ≤ num / den := (Nat.le_div_iff_mul_le hden).mpr hle
    rcases Nat.lt_or_eq_of_le (spacing_le_spacing hfloor) with hlt | heq
    · obtain ⟨hsmall, hpower, hdvd⟩ := two_pow_le_of_spacing_lt hlt
      rw [← hstep] at hdvd
      have hle := hbelow _ hdvd ((Nat.le_div_iff_mul_le hden).mp hpower)
      omega
    · rw [heq, ← hstep] at hg
      exact hbelow g hg hle

/-- No magnitude on the grid is nearer to a ratio than its rounded value, and if another one is as
    near the rounded value is an even multiple of the step. -/
theorem nearest_closest {g : Nat} (hg : 2 ^ spacing g ∣ g) :
    (nearest num den * den - num : Int).natAbs ≤ (g * den - num : Int).natAbs ∧
      ((nearest num den * den - num : Int).natAbs = (g * den - num : Int).natAbs →
        g = nearest num den ∨ nearest num den / 2 ^ spacing (num / den) % 2 = 0) := by
  obtain ⟨step, hstep⟩ : ∃ step, step = 2 ^ spacing (num / den) := ⟨_, rfl⟩
  have hpos : 0 < step := by
    rw [hstep]
    exact Nat.two_pow_pos _
  have hround : nearest num den = nearestEven num (den * step) * step := by rw [nearest, hstep]
  have hscale : ∀ k, k * step * den = k * (den * step) := fun k => by ac_rfl
  have hproduct : nearest num den * den = nearestEven num (den * step) * (den * step) := by
    rw [hround, hscale]
  have hexact : g * den = nearest num den * den → g = nearest num den :=
    Nat.eq_of_mul_eq_mul_right hden
  have hapart : g * den ≤ num / (den * step) * (den * step) ∨
      num / (den * step) * (den * step) + den * step ≤ g * den := by
    rw [← Nat.succ_mul, ← hscale, ← hscale]
    exact (grid_gap num hden hg hstep).imp (Nat.mul_le_mul_right _) (Nat.mul_le_mul_right _)
  have hsplit := Nat.div_add_mod' num (den * step)
  have hrest := Nat.mod_lt num (Nat.mul_pos hden hpos)
  rw [← hstep, hround, Nat.mul_div_cancel _ hpos, ← hround, ← Int.natCast_mul, ← Int.natCast_mul]
  rcases nearestEven_cases num (den * step) with ⟨heven, hnear⟩ | ⟨heven, hnear⟩
  · rw [heven] at hproduct ⊢
    omega
  · rw [heven, Nat.succ_mul] at hproduct
    rw [heven]
    omega

end

section

variable {num den : Nat} (hden : 0 < den)

include hden

/-- A ratio that is not above a magnitude on the grid is not rounded above it. -/
theorem nearest_le {g : Nat} (hg : 2 ^ spacing g ∣ g) (h : num ≤ g * den) :
    nearest num den ≤ g := by
  obtain ⟨hclosest, -⟩ := nearest_closest num hden hg
  refine Nat.le_of_not_lt fun hlt => ?_
  have hfar : (g + 1) * den ≤ nearest num den * den := Nat.mul_le_mul_right _ hlt
  rw [Nat.succ_mul] at hfar
  rw [← Int.natCast_mul, ← Int.natCast_mul] at hclosest
  omega

/-- A ratio that is not below a magnitude on the grid is not rounded below it. -/
theorem le_nearest {g : Nat} (hg : 2 ^ spacing g ∣ g) (h : g * den ≤ num) :
    g ≤ nearest num den := by
  obtain ⟨hclosest, -⟩ := nearest_closest num hden hg
  refine Nat.le_of_not_lt fun hlt => ?_
  have hfar : (nearest num den + 1) * den ≤ g * den := Nat.mul_le_mul_right _ hlt
  rw [Nat.succ_mul] at hfar
  rw [← Int.natCast_mul, ← Int.natCast_mul] at hclosest
  omega

/-- A greater ratio is not rounded to a smaller magnitude. -/
theorem nearest_mono {n : Nat} (h : num ≤ n) : nearest num den ≤ nearest n den := by
  have hfloor : num / den ≤ n / den := Nat.div_le_div_right h
  rcases Nat.lt_or_eq_of_le (spacing_le_spacing hfloor) with hlt | heq
  · -- The power of two at which the spacing changes lies between both ratios.
    obtain ⟨hsmall, hpower, -⟩ := two_pow_le_of_spacing_lt hlt
    have hgrid := two_pow_spacing_dvd (n / den).log2 (Nat.one_le_two_pow (n := precision))
    rw [Nat.one_mul] at hgrid
    have habove : num ≤ 2 ^ (n / den).log2 * den :=
      Nat.le_of_lt ((Nat.div_lt_iff_lt_mul hden).mp hsmall)
    exact Nat.le_trans (nearest_le hden hgrid habove)
      (le_nearest hden hgrid ((Nat.le_div_iff_mul_le hden).mp hpower))
  · rw [nearest, nearest, heq]
    exact Nat.mul_le_mul_right _ (nearestEven_mono _ h)

end

/-- The signed magnitude on the grid nearest to a signed ratio of units. -/
def signedNearest (num : Int) (den : Nat) : Int := signedUnits (num < 0) (nearest num.natAbs den)

theorem signedUnits_mul (negative : Bool) (units k : Nat) :
    signedUnits negative (units * k) = signedUnits negative units * k := by
  cases negative with
  | false => exact Int.natCast_mul units k
  | true => exact (congrArg Neg.neg (Int.natCast_mul units k)).trans (Int.neg_mul _ _).symm

theorem units?_round (negative : Bool) (num den : Nat) :
    (round negative num den).units? =
      if nearest num den < unitLimit then some (signedUnits negative (nearest num den))
      else none := by
  unfold round
  split <;> rfl

section

variable {num : Int} {den : Nat} (hden : 0 < den)

include hden

/-- A zero of either sign is rounded to zero, so the sign of a zero does not matter. -/
theorem signedNearest_signedUnits (negative : Bool) (units : Nat) :
    signedNearest (signedUnits negative units) den = signedUnits negative (nearest units den) := by
  rw [signedNearest, natAbs_signedUnits]
  by_cases hzero : units = 0
  · have hnearest := nearest_le hden (g := 0) (Nat.dvd_zero _) (Nat.zero_le (0 * den))
    rw [Nat.le_zero_eq] at hnearest
    rw [hzero, hnearest]
    cases negative <;> rfl
  · congr 1
    cases negative with
    | false =>
      exact decide_eq_false (by simp only [signedUnits, Bool.false_eq_true, if_false]; omega)
    | true => exact decide_eq_true (by simp only [signedUnits, if_true]; omega)

theorem signedNearest_mono {n : Int} (h : num ≤ n) :
    signedNearest num den ≤ signedNearest n den := by
  unfold signedNearest signedUnits
  by_cases hneg : num < 0
  · by_cases hn : n < 0
    · have hle : nearest n.natAbs den ≤ nearest num.natAbs den := nearest_mono hden (by omega)
      rw [if_pos (decide_eq_true hneg), if_pos (decide_eq_true hn)]
      omega
    · rw [if_pos (decide_eq_true hneg), if_neg (by simpa using hn)]
      omega
  · have hle : nearest num.natAbs den ≤ nearest n.natAbs den := nearest_mono hden (by omega)
    rw [if_neg (by simpa using hneg), if_neg (by simp only [decide_eq_true_eq]; omega)]
    omega

/-- A signed magnitude on the grid is rounded to itself. -/
theorem signedNearest_mul {g : Int} (hg : 2 ^ spacing g.natAbs ∣ g.natAbs) :
    signedNearest (g * den) den = g := by
  have hnearest : nearest (g.natAbs * den) den = g.natAbs :=
    Nat.le_antisymm (nearest_le hden hg (Nat.le_refl _)) (le_nearest hden hg (Nat.le_refl _))
  have hsigned := signedNearest_signedUnits hden (g < 0) (g.natAbs * den)
  rwa [signedUnits_mul, signedUnits_natAbs, hnearest, signedUnits_natAbs] at hsigned

end

/-- The units of the rounded quotient of a signed number of units by a positive one. -/
def quotientUnits (u : Int) (den : Nat) : Int := signedNearest (u * unitsPerOne) den

section

variable {u : Int} {den : Nat} (hden : 0 < den)

include hden

/-- The quotient by a positive value is the exact quotient, rounded, unless that is too large. -/
theorem units?_div {x r : Binary64} (hx : x.units? = some u) (hr : r.units? = some (den : Int)) :
    (x.div r).units? =
      if (quotientUnits u den).natAbs < unitLimit then some (quotientUnits u den) else none := by
  obtain ⟨s, a, ha, rfl, rfl, -⟩ := finite_of_units? hx
  obtain ⟨t, b, hb, rfl, ht, hsize⟩ := finite_of_units? hr
  rw [Int.natAbs_natCast] at hsize
  subst hsize
  have hpositive : t = false := by
    cases t with
    | false => rfl
    | true =>
      simp only [signedUnits, if_true] at ht
      omega
  have hdiv : (finite s a ha).div (finite t den hb) = round s (a * unitsPerOne) den := by
    rw [div, if_neg (by omega), hpositive, Bool.xor_false]
  rw [hdiv, units?_round, quotientUnits, ← signedUnits_mul, signedNearest_signedUnits hden,
    natAbs_signedUnits]

theorem quotientUnits_mono {v : Int} (h : u ≤ v) : quotientUnits u den ≤ quotientUnits v den :=
  signedNearest_mono hden (Int.mul_le_mul_of_nonneg_right h (Int.natCast_nonneg _))

/-- An exact quotient that is a whole number of at most 53 bits is not rounded. -/
theorem quotientUnits_mul {k : Int} (hk : k.natAbs ≤ 2 ^ precision) :
    quotientUnits (k * den) den = k * unitsPerOne := by
  have hgrid := (representable_mul_unitsPerOne hk).2
  rw [quotientUnits, Int.mul_right_comm]
  refine signedNearest_mul hden ?_
  rwa [Int.natAbs_mul, Int.natAbs_natCast]

/-- A quotient below the precision is rounded to a value between the integers next to it. -/
theorem quotientUnits_near (hsmall : u.natAbs < 2 ^ precision * den) :
    (quotientUnits u den).natAbs < unitLimit ∧ u / den * unitsPerOne ≤ quotientUnits u den ∧
      quotientUnits u den ≤ (u / den + 1) * unitsPerOne := by
  have hpos : (0 : Int) < den := by omega
  have hlo : -(2 ^ precision : Nat) * (den : Int) ≤ u := by
    rw [Int.neg_mul, ← Int.natCast_mul]
    omega
  have hhi : u < (2 ^ precision : Nat) * (den : Int) := by
    rw [← Int.natCast_mul]
    omega
  have hfloor := (Int.le_ediv_iff_mul_le hpos).mpr hlo
  have hceil := (Int.ediv_lt_iff_lt_mul hpos).mpr hhi
  refine ⟨?_, ?_, ?_⟩
  · have hlow := quotientUnits_mono hden hlo
    have hhigh := quotientUnits_mono hden (Int.le_of_lt hhi)
    rw [quotientUnits_mul hden (by omega)] at hlow hhigh
    have hlimit := (representable_mul_unitsPerOne (Nat.le_refl (2 ^ precision))).1
    rw [Int.neg_mul, ← Int.natCast_mul] at hlow
    rw [← Int.natCast_mul] at hhigh
    omega
  · rw [← quotientUnits_mul hden (k := u / den) (by omega)]
    exact quotientUnits_mono hden (Int.ediv_mul_le u (Int.ne_of_gt hpos))
  · rw [← quotientUnits_mul hden (k := u / den + 1) (by omega)]
    exact quotientUnits_mono hden (Int.le_of_lt (Int.lt_ediv_add_one_mul_self u hpos))

end

end CellKeys.Binary64
