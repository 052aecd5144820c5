import CellKeys.Proofs.Binary64.Quotient
import CellKeys.Proofs.Value.Binary64

namespace CellKeys

open Binary64 Value

namespace Binary64

theorem isNaN_round (negative : Bool) (num den : Nat) : (round negative num den).isNaN = false := by
  unfold round
  split <;> rfl

theorem isNaN_ofInt (n : Int) : (ofInt n).isNaN = false := by
  unfold ofInt roundUnits
  split
  · rfl
  · exact isNaN_round _ _ _

end Binary64

namespace Number

theorem eq_of_fitting {x y : Binary64} (h : fitting x = .ok y) : x = y := by
  cases x with
  | infinity => cases h
  | nan | finite => exact Except.ok.inj h

/-- A zero of any kind is a zero as a binary64 value. -/
theorem toBinary64_of_isZero {n : Number} (h : n.isZero = true) :
    ∃ x, n.toBinary64 = .ok x ∧ x.isZero = true := by
  cases n with
  | int n =>
    obtain rfl : n = 0 := by simpa [isZero] using h
    refine ⟨.zero false, ?_, rfl⟩
    rw [toBinary64, ofInt, Int.zero_mul, roundUnits, if_pos rfl]
    rfl
  | fraction q =>
    obtain rfl : q = 0 := by simpa [isZero] using h
    refine ⟨.zero false, ?_, rfl⟩
    rw [toBinary64, ofRat, Rat.num_zero, Int.natAbs_zero, Nat.zero_mul, round_zero _ (by decide)]
    rfl
  | float x => exact ⟨x, rfl, h⟩

/-- Only a NaN is NaN as a binary64 value. -/
theorem isNaN_toBinary64_iff {n : Number} {x : Binary64} (h : n.toBinary64 = .ok x) :
    x.isNaN = true ↔ n = .float .nan := by
  cases n with
  | int n =>
    rw [← eq_of_fitting (x := ofInt n) h, isNaN_ofInt]
    exact ⟨nofun, nofun⟩
  | fraction q =>
    rw [← eq_of_fitting (x := ofRat q) h, ofRat, isNaN_round]
    exact ⟨nofun, nofun⟩
  | float y =>
    cases h
    cases x with
    | nan => exact ⟨fun _ => rfl, fun _ => rfl⟩
    | infinity | finite => exact ⟨nofun, nofun⟩

section

variable {n m : Number} {x : Binary64} (hn : n.toBinary64 = .ok x) (hm : m.isZero = true)

include hn hm

/-- Division by a zero of any kind has no value at first, whatever is divided. -/
theorem quotient_of_isZero : n.quotient m = .error .zeroDivision := by
  obtain ⟨y, hy, hzero⟩ := toBinary64_of_isZero hm
  have hvalues : (do floatQuotient (← n.toBinary64) (← m.toBinary64)) = .error .zeroDivision := by
    simp only [hn, hy, bind, Except.bind, floatQuotient, if_pos hzero]
  have hfractions : ∀ p, exactQuotient p 0 = .error .zeroDivision := fun p => by
    rw [exactQuotient, if_pos rfl]
  cases m with
  | int b =>
    obtain rfl : b = 0 := by simpa [isZero] using hm
    cases n with
    | int a =>
      change intQuotient a 0 = _
      rw [intQuotient, if_pos rfl]
    | fraction p => exact hfractions p
    | float z => exact hvalues
  | fraction q =>
    obtain rfl : q = 0 := by simpa [isZero] using hm
    cases n with
    | int a => exact hfractions a
    | fraction p => exact hfractions p
    | float z => exact hvalues
  | float z => cases n <;> exact hvalues

/-- A zero divisor gives NaN for a zero and a NaN, and else an infinity with the product of the
    signs. -/
theorem quantizeNumber_of_isZero :
    quantizeNumber n m = .ok (.float (if n.isZero || x.isNaN then .nan
      else .infinity (n.isNegative ^^ m.isNegative))) := by
  rw [quantizeNumber, quotient_of_isZero hn hm]
  by_cases hzero : n.isZero = true
  · simp only [quotientByZero, hzero, if_true, bind, Except.bind, Bool.true_or]
    rfl
  · by_cases hnan : x.isNaN = true
    · simp only [quotientByZero, hzero, hn, hnan, bind, Except.bind, Bool.or_true, if_true]
      rfl
    · simp only [quotientByZero, hzero, hn, hnan, bind, Except.bind]
      rfl

end

end Number

/-- Binary64 values are divided without a failure, and their quotient is the one that the rules of
    division give: the exact quotient rounded to the nearest value, with the product of the signs
    also where it is a zero or an infinity. Numbers of all kinds that are not too large are divided
    by zeros of all kinds: zeros and NaN give NaN, and others an infinity with the product of the
    signs, where integers and fractions that are zero have no minus sign. -/
theorem quotients_follow_rules :
    (∀ (v d : Value) (x y : Binary64), v.IsBinary64 x → d.IsBinary64 y →
      ∃ quotient r, quantize v d = .ok quotient ∧ quotient.IsBinary64 r ∧
        ∀ s, IsQuotient x y s ↔ s = r) ∧
    ∀ (v d : Value) (n m : Number) (x : Binary64), v.number? = some n → d.number? = some m →
      n.toBinary64 = .ok x → m.isZero = true →
      ∃ r, quantize v d = .ok (.ofBinary64 r) ∧
        (r = .nan ↔ n.isZero = true ∨ n = .float .nan) ∧
        (r ≠ .nan → r = .infinity (n.isNegative ^^ m.isNegative)) := by
  constructor
  · intro v d x y hv hd
    obtain ⟨quotient, hquotient, hvalue⟩ := quantize_isBinary64 hv hd
    exact ⟨quotient, x.div y, hquotient, hvalue, fun s => isQuotient_iff⟩
  · intro v d n m x hv hd hx hzero
    have hquotient : quantize v d = do return .ofNumber (← quantizeNumber n m) := by
      rw [quantize, hv, hd]
    rw [Number.quantizeNumber_of_isZero hx hzero] at hquotient
    rw [← Number.isNaN_toBinary64_iff hx, ← Bool.or_eq_true]
    refine ⟨_, hquotient, ?_⟩
    by_cases hnan : (n.isZero || x.isNaN) = true
    · rw [if_pos hnan]
      exact ⟨⟨fun _ => hnan, fun _ => rfl⟩, fun hne => absurd rfl hne⟩
    · rw [if_neg hnan]
      exact ⟨⟨nofun, fun h => absurd h hnan⟩, fun _ => rfl⟩

/-- Half of the least positive value is rounded to a zero with the sign of the quotient, and a
    fraction that is a negative zero as a binary64 value keeps its sign over a negative zero. -/
theorem quotients_follow_rules_tiny :
    let least := Value.float (.ofBits 1) none
    let tiny := Value.fraction (-1 / 10 ^ 400)
    least.IsBinary64 (.ofBits 1) ∧ (Value.float (.ofInt (-2)) none).IsBinary64 (.ofInt (-2)) ∧
      tiny.number? = some (.fraction (-1 / 10 ^ 400)) ∧
      (Value.float (.zero true) none).number? = some (.float (.zero true)) ∧
      (Number.fraction (-1 / 10 ^ 400)).toBinary64 = .ok (.zero true) ∧
      (∃ quotient, quantize least (.float (.ofInt (-2)) none) = .ok quotient ∧
        quotient.IsBinary64 (.zero true)) ∧
      quantize tiny (.float (.zero true) none) = .ok (.ofBinary64 (.infinity false)) := by
  intro least tiny
  have hleast : least.IsBinary64 (.ofBits 1) := .float _ _
  have hsize : (Value.float (.ofInt (-2)) none).IsBinary64 (.ofInt (-2)) := .float _ _
  have htiny : (Number.fraction (-1 / 10 ^ 400)).toBinary64 = .ok (.zero true) := by decide +kernel
  obtain ⟨hvalues, hzeros⟩ := quotients_follow_rules
  obtain ⟨quotient, r, hquotient, hr, hunique⟩ := hvalues _ _ _ _ hleast hsize
  have hhalf : IsQuotient (.ofBits 1) (.ofInt (-2)) (.zero true) :=
    isQuotient_iff.mpr (by decide +kernel)
  obtain rfl := (hunique _).mp hhalf
  obtain ⟨s, hs, hnan, hinfinity⟩ := hzeros tiny (.float (.zero true) none) _ _ _ rfl rfl htiny rfl
  have hne : s ≠ .nan := by
    rw [ne_eq, hnan]
    rintro (hzero | hfloat)
    · exact absurd hzero (by decide +kernel)
    · cases hfloat
  have hsign : ((Number.fraction (-1 / 10 ^ 400)).isNegative ^^ true) = false := by decide +kernel
  rw [hinfinity hne] at hs
  refine ⟨hleast, hsize, rfl, rfl, htiny, ⟨quotient, hquotient, hr⟩, hs.trans ?_⟩
  exact congrArg (fun s => Except.ok (Value.ofBinary64 (.infinity s))) hsign

end CellKeys
