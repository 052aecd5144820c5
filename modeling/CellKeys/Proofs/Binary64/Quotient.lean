import CellKeys.Proofs.Binary64.Fraction
import CellKeys.Proofs.Binary64.Monotone
import Mathlib.Tactic.Linarith

namespace CellKeys.Binary64

/-- A magnitude in units with these binary digits before this many zeros. There are at most 53
    digits, and zeros only behind all of them. -/
structure HasDigits (units digits zeros : ℕ) : Prop where
  value : units = digits * 2 ^ zeros
  fits : digits < 2 ^ 53
  full : zeros = 0 ∨ 2 ^ 52 ≤ digits

/-- A magnitude nearest to an exact one, both in units. If another one is as near, its last digit is
    even. No magnitude is too large here. -/
structure IsNearest (exact : ℚ) (units digits zeros : ℕ) : Prop where
  hasDigits : HasDigits units digits zeros
  closest : ∀ {other d z : ℕ}, HasDigits other d z → |(units : ℚ) - exact| ≤ |(other : ℚ) - exact|
  even : ∀ {other d z : ℕ}, HasDigits other d z → other ≠ units →
    |(units : ℚ) - exact| = |(other : ℚ) - exact| → digits % 2 = 0

/-- The rounded value of an exact magnitude in units, with this sign. -/
inductive IsRounded (negative : Bool) (exact : ℚ) : Binary64 → Prop where
  | within {units digits zeros : ℕ} (h : IsNearest exact units digits zeros)
    (hsmall : Representable units) : IsRounded negative exact (.finite negative units hsmall)
  | tooLarge {units digits zeros : ℕ} (h : IsNearest exact units digits zeros)
    (hlarge : unitLimit ≤ units) : IsRounded negative exact (.infinity negative)

/-- The quotient of two values. -/
inductive IsQuotient : Binary64 → Binary64 → Binary64 → Prop where
  | nan_dividend (y : Binary64) : IsQuotient .nan y .nan
  | nan_divisor (x : Binary64) : IsQuotient x .nan .nan
  | infinities (s t : Bool) : IsQuotient (.infinity s) (.infinity t) .nan
  | zeros (s t : Bool) : IsQuotient (.zero s) (.zero t) .nan
  | infinite_dividend (s : Bool) {y : Binary64} (hy : y.isFinite = true) :
    IsQuotient (.infinity s) y (.infinity (s ^^ y.isNegative))
  | infinite_divisor {x : Binary64} (hx : x.isFinite = true) (t : Bool) :
    IsQuotient x (.infinity t) (.zero (x.isNegative ^^ t))
  | zero_divisor {x : Binary64} (hx : x.isFinite = true) (hne : x.isZero = false) (t : Bool) :
    IsQuotient x (.zero t) (.infinity (x.isNegative ^^ t))
  /-- The exact quotient of fractions, rounded. -/
  | rounded {x y r : Binary64} {p q : ℚ} (hx : (Number.float x).rational? = some p)
    (hy : (Number.float y).rational? = some q) (hne : q ≠ 0)
    (hr : IsRounded (x.isNegative ^^ y.isNegative) (|p / q| * unitsPerOne) r) : IsQuotient x y r

namespace HasDigits

variable {units digits zeros : ℕ}

/-- The size of a magnitude tells how many zeros there are behind its digits. -/
theorem zeros_eq (h : HasDigits units digits zeros) : zeros = spacing units := by
  obtain ⟨rfl, hfits, rfl | hfull⟩ := h
  · have hlog : (digits * 2 ^ 0).log2 ≤ 52 := by
      rw [Nat.pow_zero, Nat.mul_one]
      by_cases hzero : digits = 0
      · simp [hzero]
      · exact Nat.le_of_lt_succ ((Nat.log2_lt hzero).mpr hfits)
    unfold spacing precision
    omega
  · have hpos := Nat.two_pow_pos zeros
    have hlog : (digits * 2 ^ zeros).log2 = 52 + zeros := by
      rw [Nat.log2_eq_iff (Nat.mul_ne_zero (by omega) (Nat.ne_of_gt hpos)), Nat.add_right_comm,
        Nat.pow_add, Nat.pow_add]
      exact ⟨Nat.mul_le_mul_right _ hfull, Nat.mul_lt_mul_of_pos_right hfits hpos⟩
    unfold spacing precision
    omega

theorem two_pow_dvd (h : HasDigits units digits zeros) : 2 ^ spacing units ∣ units := by
  rw [← h.zeros_eq]
  exact ⟨digits, by rw [Nat.mul_comm, h.value]⟩

/-- Every magnitude on the grid has digits. -/
theorem of_two_pow_dvd (h : 2 ^ spacing units ∣ units) :
    HasDigits units (units / 2 ^ spacing units) (spacing units) where
  value := (Nat.div_mul_cancel h).symm
  fits := by
    rw [Nat.div_lt_iff_lt_mul (Nat.two_pow_pos _), ← Nat.pow_add]
    refine Nat.lt_of_lt_of_le Nat.lt_log2_self (Nat.pow_le_pow_right (by decide) ?_)
    unfold spacing precision
    omega
  full := by
    by_cases hzero : spacing units = 0
    · exact .inl hzero
    · right
      rw [Nat.le_div_iff_mul_le (Nat.two_pow_pos _), ← Nat.pow_add]
      have hlog : 52 + spacing units = units.log2 := by
        unfold spacing precision at hzero ⊢
        omega
      have hne : units ≠ 0 := by
        rintro rfl
        exact hzero rfl
      rw [hlog]
      exact Nat.log2_self_le hne

/-- If the last digit is even there is room for one more. -/
theorem succ_of_even (h : HasDigits units digits zeros) (heven : digits % 2 = 0) :
    HasDigits (units + 2 ^ zeros) (digits + 1) zeros where
  value := by rw [h.value, Nat.succ_mul]
  fits := by
    have hfits := h.fits
    omega
  full := h.full.imp id fun hfull => by omega

end HasDigits

namespace IsNearest

variable {exact : ℚ} {u v d e y z : ℕ}

/-- Two magnitudes nearest to an exact one would be neighbours, and only one of these is even. -/
theorem not_lt (hu : IsNearest exact u d y) (hv : IsNearest exact v e z) : ¬ u < v := by
  intro hlt
  have hltq : (u : ℚ) < v := by exact_mod_cast hlt
  have htie : |(u : ℚ) - exact| = |(v : ℚ) - exact| :=
    le_antisymm (hu.closest hv.hasDigits) (hv.closest hu.hasDigits)
  have hd := hu.even hv.hasDigits (Nat.ne_of_gt hlt) htie
  have he := hv.even hu.hasDigits (Nat.ne_of_lt hlt) htie.symm
  have hmiddle : (v : ℚ) = 2 * exact - u := by
    rcases abs_eq_abs.mp htie with hsame | hopposite <;> linarith
  -- The magnitude with the next digits is not nearer, so the other one is not behind it.
  have hnext := hu.hasDigits.succ_of_even hd
  have hstep : v ≤ u + 2 ^ y := by
    refine Nat.le_of_not_lt fun hfar => ?_
    have hfarq : ((u + 2 ^ y : ℕ) : ℚ) < v := by exact_mod_cast hfar
    have hbehind : (u : ℚ) < (u + 2 ^ y : ℕ) := by
      exact_mod_cast Nat.lt_add_of_pos_right (Nat.two_pow_pos y)
    have hcloser : |((u + 2 ^ y : ℕ) : ℚ) - exact| < |(u : ℚ) - exact| := by
      rw [abs_of_neg (show (u : ℚ) - exact < 0 by linarith), abs_lt]
      constructor <;> linarith
    exact absurd (hu.closest hnext) (not_le.mpr hcloser)
  have hle : y ≤ z := by
    rw [hu.hasDigits.zeros_eq, hv.hasDigits.zeros_eq]
    exact spacing_le_spacing (Nat.le_of_lt hlt)
  have hneighbour : v = u + 2 ^ y := by
    have hdvd : 2 ^ y ∣ v - u := by
      refine Nat.dvd_sub ?_ ⟨d, by rw [Nat.mul_comm, hu.hasDigits.value]⟩
      exact Nat.dvd_trans (Nat.pow_dvd_pow 2 hle) ⟨e, by rw [Nat.mul_comm, hv.hasDigits.value]⟩
    have hge := Nat.le_of_dvd (by omega) hdvd
    omega
  rw [← hneighbour] at hnext
  have hzeros : y = z := hnext.zeros_eq.trans hv.hasDigits.zeros_eq.symm
  have hdigits : (d + 1) * 2 ^ y = e * 2 ^ y := by
    rw [← hnext.value, hzeros, hv.hasDigits.value]
  have hsame := Nat.eq_of_mul_eq_mul_right (Nat.two_pow_pos y) hdigits
  omega

theorem unique (hu : IsNearest exact u d y) (hv : IsNearest exact v e z) : u = v :=
  Nat.le_antisymm (Nat.le_of_not_lt (hv.not_lt hu)) (Nat.le_of_not_lt (hu.not_lt hv))

end IsNearest

section

variable (num : ℕ) {den : ℕ} (hden : 0 < den)

include hden

/-- The distance of a magnitude from a ratio in parts of the denominator. -/
theorem abs_sub_div (g : ℕ) :
    |(g : ℚ) - num / den| = ((g * den - num : ℤ).natAbs : ℚ) / den := by
  have hpos : (0 : ℚ) < den := by exact_mod_cast hden
  rw [Nat.cast_natAbs, Int.cast_abs, ← abs_of_pos hpos, ← abs_div, abs_of_pos hpos]
  congr 1
  rw [eq_div_iff (ne_of_gt hpos), sub_mul, div_mul_cancel₀ _ (ne_of_gt hpos)]
  push_cast
  rfl

/-- Rounding does not cross the power of two at which the spacing got its size. -/
theorem spacing_le_spacing_nearest : spacing (num / den) ≤ spacing (nearest num den) := by
  by_cases hzero : num / den = 0
  · rw [hzero]
    exact Nat.zero_le _
  have hgrid := two_pow_spacing_dvd (num / den).log2 (Nat.one_le_two_pow (n := precision))
  rw [Nat.one_mul] at hgrid
  have hpower : 2 ^ (num / den).log2 * den ≤ num :=
    (Nat.le_div_iff_mul_le hden).mp (Nat.log2_self_le hzero)
  calc spacing (num / den) = spacing (2 ^ (num / den).log2) := by
        rw [spacing, spacing, Nat.log2_two_pow]
    _ ≤ spacing (nearest num den) := spacing_le_spacing (le_nearest hden hgrid hpower)

/-- An even multiple of the spacing at a ratio is an even multiple of its own spacing. -/
theorem even_nearest (heven : nearest num den / 2 ^ spacing (num / den) % 2 = 0) :
    nearest num den / 2 ^ spacing (nearest num den) % 2 = 0 := by
  rcases Nat.lt_or_eq_of_le (spacing_le_spacing_nearest num hden) with hlt | heq
  · -- The ratio was rounded up to a power of two.
    obtain ⟨hbelow, hpower, hdvd⟩ := two_pow_le_of_spacing_lt hlt
    have hgrid := two_pow_spacing_dvd (nearest num den).log2 (Nat.one_le_two_pow (n := precision))
    rw [Nat.one_mul] at hgrid
    have habove : num ≤ 2 ^ (nearest num den).log2 * den :=
      Nat.le_of_lt ((Nat.div_lt_iff_lt_mul hden).mp hbelow)
    have hvalue : nearest num den = 2 ^ (nearest num den).log2 :=
      Nat.le_antisymm (nearest_le hden hgrid habove) hpower
    have hlog : (nearest num den).log2 = 52 + spacing (nearest num den) := by
      unfold spacing precision at hlt ⊢
      omega
    have hdigits : nearest num den / 2 ^ spacing (nearest num den) = 2 ^ 52 := by
      refine Nat.div_eq_of_eq_mul_left (Nat.two_pow_pos _) ?_
      rw [← Nat.pow_add, ← hlog]
      exact hvalue
    rw [hdigits]
  · rwa [← heq]

/-- The rounding function gives the nearest magnitude. -/
theorem isNearest_nearest :
    IsNearest (num / den) (nearest num den) (nearest num den / 2 ^ spacing (nearest num den))
      (spacing (nearest num den)) where
  hasDigits := .of_two_pow_dvd (two_pow_spacing_dvd_nearest num den)
  closest := by
    intro other d z hother
    have hpos : (0 : ℚ) < den := by exact_mod_cast hden
    rw [abs_sub_div num hden, abs_sub_div num hden, div_le_div_iff_of_pos_right hpos]
    exact_mod_cast (nearest_closest num hden hother.two_pow_dvd).1
  even := by
    intro other d z hother hne htie
    have hpos : (0 : ℚ) < den := by exact_mod_cast hden
    rw [abs_sub_div num hden, abs_sub_div num hden, div_left_inj' (ne_of_gt hpos)] at htie
    have hclosest := (nearest_closest num hden hother.two_pow_dvd).2
    rcases hclosest (by exact_mod_cast htie) with hsame | heven
    · exact absurd hsame hne
    · exact even_nearest num hden heven

end

/-- Rounding a ratio follows the rules. -/
theorem isRounded_iff {negative : Bool} {num den : ℕ} (hden : 0 < den) {r : Binary64} :
    IsRounded negative (num / den) r ↔ r = round negative num den := by
  have hnearest := isNearest_nearest num hden
  constructor
  · rintro (⟨h, hsmall⟩ | ⟨h, hlarge⟩)
    · obtain rfl := h.unique hnearest
      rw [round, dif_pos hsmall.1]
    · obtain rfl := h.unique hnearest
      rw [round, dif_neg (Nat.not_lt.mpr hlarge)]
  · intro hr
    rw [hr]
    by_cases hsmall : nearest num den < unitLimit
    · rw [round, dif_pos hsmall]
      exact .within hnearest (representable_nearest hsmall)
    · rw [round, dif_neg hsmall]
      exact .tooLarge hnearest (Nat.le_of_not_lt hsmall)

/-- The exact quotient of two numbers of units, in units. -/
theorem abs_div_mul_unitsPerOne (u v : ℤ) :
    |(u : ℚ) / unitsPerOne / (v / unitsPerOne)| * unitsPerOne =
      ((u.natAbs * unitsPerOne : ℕ) : ℚ) / v.natAbs := by
  have hone : (unitsPerOne : ℚ) ≠ 0 := by exact_mod_cast Nat.ne_of_gt unitsPerOne_pos
  rw [div_div_div_cancel_right₀ hone, abs_div, div_mul_eq_mul_div, Nat.cast_mul, Nat.cast_natAbs,
    Nat.cast_natAbs, Int.cast_abs, Int.cast_abs]

section

variable {x y r : Binary64} {p q : ℚ} (hx : (Number.float x).rational? = some p)
  (hy : (Number.float y).rational? = some q) (hne : q ≠ 0)

include hx hy hne

/-- Division of finite numbers rounds the exact quotient. -/
theorem isRounded_quotient_iff :
    IsRounded (x.isNegative ^^ y.isNegative) (|p / q| * unitsPerOne) r ↔ r = x.div y := by
  obtain ⟨u, hu, rfl⟩ := rational?_eq_some.mp hx
  obtain ⟨v, hv, rfl⟩ := rational?_eq_some.mp hy
  obtain ⟨s, a, ha, rfl, -, rfl⟩ := finite_of_units? hu
  obtain ⟨t, b, hb, rfl, -, rfl⟩ := finite_of_units? hv
  have hpos : 0 < v.natAbs := by
    rw [Int.natAbs_pos]
    rintro rfl
    exact hne (by rw [Int.cast_zero, zero_div])
  rw [abs_div_mul_unitsPerOne, isRounded_iff hpos, div, if_neg (Nat.ne_of_gt hpos)]
  rfl

end

/-- No other value than what division gives is a quotient by the rules. -/
theorem IsQuotient.eq_div {x y r : Binary64} (h : IsQuotient x y r) : r = x.div y := by
  cases h with
  | nan_dividend y => rfl
  | nan_divisor x => exact (div_nan x).symm
  | infinities s t => rfl
  | zeros s t => simp [zero, div]
  | infinite_dividend s hy =>
    cases y with
    | nan | infinity => cases hy
    | finite t b hb => rfl
  | infinite_divisor hx t =>
    cases x with
    | nan | infinity => cases hx
    | finite s a ha => rfl
  | zero_divisor hx hnonzero t =>
    cases x with
    | nan | infinity => cases hx
    | finite s a ha =>
      have hne : a ≠ 0 := by simpa [isZero] using hnonzero
      simp [zero, div, hne, isNegative]
  | rounded hx hy hne hr => exact (isRounded_quotient_iff hx hy hne).mp hr

theorem isQuotient_div (x y : Binary64) : IsQuotient x y (x.div y) := by
  cases x with
  | nan => exact .nan_dividend y
  | infinity s =>
    cases y with
    | nan => exact .nan_divisor _
    | infinity t => exact .infinities s t
    | finite t b hb => exact .infinite_dividend s rfl
  | finite s a ha =>
    cases y with
    | nan => exact .nan_divisor _
    | infinity t => exact .infinite_divisor rfl t
    | finite t b hb =>
      by_cases hdivisor : b = 0
      · subst hdivisor
        by_cases hdividend : a = 0
        · subst hdividend
          exact .zeros s t
        · have hquotient := IsQuotient.zero_divisor (x := finite s a ha) rfl
            (beq_eq_false_iff_ne.mpr hdividend) t
          rwa [div, if_pos rfl, if_neg hdividend]
      · have hx : (Number.float (finite s a ha)).rational? = some _ :=
          rational?_eq_some.mpr ⟨_, rfl, rfl⟩
        have hy : (Number.float (finite t b hb)).rational? = some _ :=
          rational?_eq_some.mpr ⟨_, rfl, rfl⟩
        have hone : (unitsPerOne : ℚ) ≠ 0 := by exact_mod_cast Nat.ne_of_gt unitsPerOne_pos
        have hunits : signedUnits t b ≠ 0 := by
          rw [← Int.natAbs_ne_zero, natAbs_signedUnits]
          exact hdivisor
        have hne : (signedUnits t b : ℚ) / unitsPerOne ≠ 0 :=
          div_ne_zero (Int.cast_ne_zero.mpr hunits) hone
        exact .rounded hx hy hne ((isRounded_quotient_iff hx hy hne).mpr rfl)

/-- There is one quotient by the rules, and division gives it. -/
theorem isQuotient_iff {x y r : Binary64} : IsQuotient x y r ↔ r = x.div y := by
  constructor
  · exact IsQuotient.eq_div
  · intro hr
    rw [hr]
    exact isQuotient_div x y

theorem exists_one : ∃ h, one = finite false unitsPerOne h :=
  ⟨by decide +kernel, by decide +kernel⟩

/-- A value on the grid is the nearest one to itself. -/
theorem round_mul_of_representable (negative : Bool) {units den : Nat} (h : Representable units)
    (hden : 0 < den) : round negative (units * den) den = finite negative units h := by
  have hnearest : nearest (units * den) den = units :=
    Nat.le_antisymm (nearest_le hden h.2 (Nat.le_refl _)) (le_nearest hden h.2 (Nat.le_refl _))
  have hsmall : nearest (units * den) den < unitLimit := by
    rw [hnearest]
    exact h.1
  rw [round, dif_pos hsmall, finite.injEq]
  exact ⟨rfl, hnearest⟩

/-- Division by one changes nothing. -/
theorem div_one (x : Binary64) : x.div one = x := by
  obtain ⟨hgrid, hone⟩ := exists_one
  rw [hone]
  cases x with
  | nan => rfl
  | infinity s => exact congrArg infinity (Bool.xor_false s)
  | finite s a ha =>
    have hne : unitsPerOne ≠ 0 := Nat.ne_of_gt unitsPerOne_pos
    simp only [div, if_neg hne, Bool.xor_false, round_mul_of_representable s ha unitsPerOne_pos]

end CellKeys.Binary64
