import CellKeys.Proofs.Binary64.Exact
import CellKeys.Proofs.Key.Axis
import CellKeys.Proofs.Key.Cells

namespace CellKeys

open Value

namespace Number

theorem fitting_of_isFinite {x : Binary64} (h : x.isFinite = true) : fitting x = .ok x := by
  cases x with
  | nan | infinity => cases h
  | finite => rfl

/-- A number that is not too large lies in the cell that its exact value floors to. -/
theorem cell_of_rational? {x : Number} {y : Binary64} {q : ℚ} (hq : x.rational? = some q)
    (hy : x.toBinary64 = .ok y) : x.cell = .ok (some ⌊q⌋) := by
  simp only [cell, hy, bind, Except.bind]
  cases x with
  | int n =>
    cases hq
    rw [Int.floor_intCast]
    rfl
  | fraction p =>
    cases hq
    rfl
  | float x =>
    have hfloor := x.cell?_eq_floor
    rw [hq] at hfloor
    exact congrArg Except.ok hfloor

end Number

namespace Value

/-- A number with this exact value that is not too large for a binary64 value. -/
inductive HasValue : Value → ℚ → Prop where
  | number {v : Value} {x : Number} {y : Binary64} {q : ℚ} (h : v.number? = some x)
    (hq : x.rational? = some q) (hy : x.toBinary64 = .ok y) : HasValue v q
  | scalar {x : Binary64} {q : ℚ} (m : Mark) (hq : (Number.float x).rational? = some q) :
    HasValue (.scalar ⟨.float64, .float x⟩ m) q

theorem cell_of_number? {v : Value} {x : Number} (h : v.number? = some x) : v.cell = x.cell := by
  have helement : v.element? = .none := by
    cases v with
    | bool | int | width | float | fraction => rfl
    | _ => cases h
  rw [Value.cell, toNumber, helement, h]
  rfl

theorem HasValue.cell {v : Value} {q : ℚ} (h : v.HasValue q) : v.cell = .ok (some ⌊q⌋) := by
  cases h with
  | number hn hq hy => rw [cell_of_number? hn, Number.cell_of_rational? hq hy]
  | @scalar x _ m hq =>
    have hfloor := x.cell?_eq_floor
    rw [hq] at hfloor
    exact congrArg Except.ok hfloor

theorem hasValue_int {n : Int} {k : Nat} (hk : k < 1024) (h : n.natAbs < 2 ^ k) :
    (Value.int n).HasValue n :=
  .number rfl rfl (Number.fitting_of_isFinite (Binary64.isFinite_ofInt hk h))

end Value

section

variable (w : Width) {bits axis : Value} {b i : Int} (hb : bits.number? = some (.int b))
  (hi : axis.number? = some (.int i))

include hb hi

theorem axisHashValue_of_hasValue {v : Value} {q : ℚ} (hv : v.HasValue q) :
    axisHashValue w v bits axis = .ok (.int (w.axisWord (some ⌊q⌋) (b * i))) :=
  axisHashValue_eq w hb hi hv.cell

theorem axisHashValue_int {n : Int} (hlo : -2 ^ (w.bits - 1) ≤ n) (hhi : n < 2 ^ (w.bits - 1)) :
    axisHashValue w (.int n) bits axis = .ok (.int (w.axisWord (some n) (b * i))) := by
  have hsmall : n.natAbs < 2 ^ w.bits := by
    have hhalf : (2 : Int) ^ (w.bits - 1) < 2 ^ w.bits := by cases w <;> decide
    zify
    rw [abs_lt]
    omega
  have hvalue := hasValue_int (by cases w <;> decide) hsmall
  rw [axisHashValue_of_hasValue w hb hi hvalue, Int.floor_intCast]

/-- The words of the signed integers of the word size are all words, each of them once. -/
theorem bijOn_axisHashValue : Set.BijOn (fun n : Int => axisHashValue w (.int n) bits axis)
    {n | -2 ^ (w.bits - 1) ≤ n ∧ n < 2 ^ (w.bits - 1)}
    ((fun word : Nat => .ok (.int word)) '' {word | word < 2 ^ w.bits}) := by
  refine ⟨?_, ?_, ?_⟩
  · rintro n ⟨hlo, hhi⟩
    simp only [axisHashValue_int w hb hi hlo hhi, w.axisWord_eq]
    exact ⟨_, BitVec.isLt _, rfl⟩
  · rintro m ⟨hmlo, hmhi⟩ n ⟨hnlo, hnhi⟩ heq
    simp only [axisHashValue_int w hb hi hmlo hmhi, axisHashValue_int w hb hi hnlo hnhi,
      Except.ok.injEq, Value.int.injEq] at heq
    have hdvd := (w.axisWord_some_inj.mp heq).dvd
    have hrange : (2 : Int) ^ w.bits = 2 * 2 ^ (w.bits - 1) := by cases w <;> rfl
    have hzero := Int.eq_zero_of_abs_lt_dvd hdvd (by rw [abs_lt]; omega)
    omega
  · rintro _ ⟨word, hlt, rfl⟩
    obtain ⟨n, hlo, hhi, hn⟩ := w.exists_axisWord_eq (b * i) hlt
    refine ⟨n, ⟨hlo, hhi⟩, ?_⟩
    simp only [axisHashValue_int w hb hi hlo hhi, hn]

/-- For both word sizes and all integers that turn the words, two finite numbers of any kind that
    are not too large have one word just where their exact floors are congruent modulo the number of
    words. The words of the signed integers of the word size are all words, each once. Infinities
    and NaN have the word of a single bit, which is the word of the numbers whose floor is congruent
    to half the number of words and of no others. -/
theorem axis_hashes_collide_iff :
    (∀ (u v : Value) (p q : ℚ), u.HasValue p → v.HasValue q →
      ∃ j k : Nat, j < 2 ^ w.bits ∧ k < 2 ^ w.bits ∧
        axisHashValue w u bits axis = .ok (.int j) ∧ axisHashValue w v bits axis = .ok (.int k) ∧
        (j = k ↔ ⌊p⌋ ≡ ⌊q⌋ [ZMOD 2 ^ w.bits])) ∧
    Set.BijOn (fun n : Int => axisHashValue w (.int n) bits axis)
      {n | -2 ^ (w.bits - 1) ≤ n ∧ n < 2 ^ (w.bits - 1)}
      ((fun word : Nat => .ok (.int word)) '' {word | word < 2 ^ w.bits}) ∧
    ∃ word : Int, word = 2 ^ (((w.bits : Int) - 1 + b * i) % (w.bits : Int)).toNat ∧
      (∀ (v : Value) (x : Binary64), v.IsBinary64 x → x.isFinite = false →
        axisHashValue w v bits axis = .ok (.int word)) ∧
      ∀ (v : Value) (q : ℚ), v.HasValue q →
        (axisHashValue w v bits axis = .ok (.int word) ↔
          ⌊q⌋ ≡ 2 ^ (w.bits - 1) [ZMOD 2 ^ w.bits]) := by
  refine ⟨?_, bijOn_axisHashValue w hb hi, w.axisWord none (b * i), w.axisWord_none _, ?_, ?_⟩
  · intro u v p q hu hv
    have hinj : w.axisWord (some ⌊p⌋) (b * i) = w.axisWord (some ⌊q⌋) (b * i) ↔ _ :=
      w.axisWord_some_inj
    rw [axisHashValue_of_hasValue w hb hi hu, axisHashValue_of_hasValue w hb hi hv, ← hinj,
      w.axisWord_eq, w.axisWord_eq, Int.ofNat_inj]
    exact ⟨_, _, BitVec.isLt _, BitVec.isLt _, rfl, rfl, Iff.rfl⟩
  · intro v x hv hfinite
    rw [axisHashValue_eq w hb hi hv.cell, (x.cell?_eq_none_iff).mpr hfinite]
  · intro v q hv
    rw [axisHashValue_of_hasValue w hb hi hv, Except.ok.injEq, Value.int.injEq]
    exact w.axisWord_eq_none_iff

end

/-- A fraction and an integer beyond the precision of a binary64 value share a word, and a NaN has
    the word of a single bit, turned by a negative amount of more than a full turn. -/
theorem axis_hashes_collide_iff_large :
    let large := Value.fraction (2305843009213693953 / 2)
    let larger := Value.int (2 ^ 60 + 2 ^ 32)
    Value.number? (.int (-5)) = some (.int (-5)) ∧ Value.number? (.int 7) = some (.int 7) ∧
      large.HasValue (2305843009213693953 / 2) ∧ larger.HasValue (2 ^ 60 + 2 ^ 32 : Int) ∧
      (∃ word : Nat, axisHashValue .w32 large (.int (-5)) (.int 7) = .ok (.int word) ∧
        axisHashValue .w32 larger (.int (-5)) (.int 7) = .ok (.int word)) ∧
      axisHashValue .w32 (.float .nan none) (.int (-5)) (.int 7) = .ok (.int (2 ^ 28)) := by
  intro large larger
  have hlarge : large.HasValue (2305843009213693953 / 2) :=
    .number rfl rfl (y := .ofRat (2305843009213693953 / 2)) (by decide +kernel)
  have hlarger : larger.HasValue (2 ^ 60 + 2 ^ 32 : Int) :=
    hasValue_int (k := 64) (by decide) (by decide)
  obtain ⟨hpairs, -, word, rfl, hnan, -⟩ :=
    axis_hashes_collide_iff .w32 (b := -5) (i := 7) (rfl : Value.number? (.int (-5)) = _)
      (rfl : Value.number? (.int 7) = _)
  obtain ⟨j, k, -, -, hj, hk, hsame⟩ := hpairs large larger _ _ hlarge hlarger
  have hword : j = k := by
    rw [hsame, Int.floor_intCast]
    decide +kernel
  subst hword
  exact ⟨rfl, rfl, hlarge, hlarger, ⟨j, hj, hk⟩, hnan _ _ (.float _ _) rfl⟩

end CellKeys
