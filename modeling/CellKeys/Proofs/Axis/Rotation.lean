import CellKeys.Rotation

namespace CellKeys

namespace Word

variable {n : Nat}

/-- Turning spreads over exclusive or. -/
theorem rotateLeft_xor (x y : BitVec n) (amount : Nat) :
    (x ^^^ y).rotateLeft amount = x.rotateLeft amount ^^^ y.rotateLeft amount := by
  apply BitVec.eq_of_getLsbD_eq
  intro i hi
  simp only [BitVec.getLsbD_rotateLeft, BitVec.getLsbD_xor]
  by_cases hlow : i < amount % n
  · simp [hlow]
  · simp [hlow, hi]

/-- The bit at a place is the one that was this many places below it, counted from the top again
    below the bottom. -/
theorem getLsbD_rotateLeft_mod (x : BitVec n) (amount : Nat) {i : Nat} (hi : i < n) :
    (x.rotateLeft amount).getLsbD i = x.getLsbD ((i + (n - amount % n)) % n) := by
  have hturn : amount % n < n := Nat.mod_lt _ (by omega)
  rw [BitVec.getLsbD_rotateLeft]
  generalize amount % n = left at hturn
  by_cases hlow : i < left
  · rw [decide_eq_true hlow, cond_true, Nat.mod_eq_of_lt (by omega), Nat.add_comm]
  · have hplace : (i + (n - left)) % n = i - left := by
      rw [Nat.mod_eq_sub_mod (by omega), Nat.mod_eq_of_lt (by omega)]
      omega
    rw [decide_eq_false hlow, cond_false, decide_eq_true hi, Bool.true_and, hplace]

/-- Turning twice is turning by the sum. -/
theorem rotateLeft_rotateLeft (x : BitVec n) (a b : Nat) :
    (x.rotateLeft a).rotateLeft b = x.rotateLeft (a + b) := by
  apply BitVec.eq_of_getLsbD_eq
  intro i hi
  have hpos : 0 < n := by omega
  have ha := Nat.mod_lt a hpos
  have hb := Nat.mod_lt b hpos
  rw [getLsbD_rotateLeft_mod _ _ hi, getLsbD_rotateLeft_mod _ _ (Nat.mod_lt _ hpos),
    getLsbD_rotateLeft_mod _ _ hi, Nat.mod_add_mod, Nat.add_mod_eq_ite (m := a)]
  congr 1
  generalize a % n = c at ha
  generalize b % n = d at hb
  split
  · rw [show i + (n - d) + (n - c) = i + (n - (c + d - n)) by omega]
  · rw [show i + (n - d) + (n - c) = i + (n - (c + d)) + n by omega, Nat.add_mod_right]

/-- Turning by whole turns changes nothing. -/
theorem rotateLeft_of_dvd {amount : Nat} (h : n ∣ amount) (x : BitVec n) :
    x.rotateLeft amount = x := by
  rw [← BitVec.rotateLeft_mod_eq_rotateLeft, Nat.mod_eq_zero_of_dvd h]
  apply BitVec.eq_of_getLsbD_eq
  intro i hi
  rw [getLsbD_rotateLeft_mod _ _ hi, Nat.zero_mod, Nat.sub_zero, Nat.add_mod_right,
    Nat.mod_eq_of_lt hi]

/-- Turning by one amount keeps different words different. -/
theorem rotateLeft_inj {x y : BitVec n} {amount : Nat} :
    x.rotateLeft amount = y.rotateLeft amount ↔ x = y := by
  constructor
  · intro h
    rcases Nat.eq_zero_or_pos n with rfl | hpos
    · exact Subsingleton.elim x y
    · -- The rest of a full turn turns both words back.
      have hback := congrArg (fun v : BitVec n => v.rotateLeft (n - amount % n)) h
      have hfull : n ∣ amount + (n - amount % n) := by
        have hturn := Nat.mod_lt amount hpos
        have hsplit := Nat.div_add_mod amount n
        exact ⟨amount / n + 1, by rw [Nat.mul_succ]; omega⟩
      simpa only [rotateLeft_rotateLeft, rotateLeft_of_dvd hfull] using hback
  · intro h
    rw [h]

/-- A single bit is turned to the place that far up, counted from the bottom again after the top. -/
theorem rotateLeft_twoPow {place : Nat} (hplace : place < n) (amount : Nat) :
    (BitVec.twoPow n place).rotateLeft amount = BitVec.twoPow n ((place + amount) % n) := by
  have hturn : amount % n < n := Nat.mod_lt _ (by omega)
  have hsum : (place + amount) % n =
      if n ≤ place + amount % n then place + amount % n - n else place + amount % n := by
    rw [Nat.add_mod_eq_ite, Nat.mod_eq_of_lt hplace]
  apply BitVec.eq_of_getLsbD_eq
  intro i hi
  simp only [BitVec.getLsbD_rotateLeft, BitVec.getLsbD_twoPow, hsum]
  by_cases hlow : i < amount % n
  · simp only [hlow, decide_true, cond_true, ← Bool.decide_and, decide_eq_decide]
    split <;> omega
  · simp only [hlow, decide_false, cond_false, ← Bool.decide_and, decide_eq_decide]
    split <;> omega

end Word

namespace Width

theorem turn_natCast (w : Width) (amount : Nat) : w.turn amount = amount % w.bits := by
  unfold turn
  rw [← Int.natCast_emod]
  rfl

theorem turn_natCast_add (w : Width) (start : Nat) (amount : Int) :
    w.turn (start + amount) = (start + w.turn amount) % w.bits := by
  have hpos : (w.bits : Int) ≠ 0 := by exact_mod_cast Nat.ne_of_gt w.bits_pos
  have hturn : (w.turn amount : Int) = amount % (w.bits : Int) :=
    Int.toNat_of_nonneg (Int.emod_nonneg amount hpos)
  have hsum : ((start + w.turn amount : Nat) : Int) % (w.bits : Int) =
      (start + amount) % (w.bits : Int) := by
    rw [Int.natCast_add, hturn, Int.add_emod_emod]
  rw [← turn_natCast, turn, turn, hsum]

theorem residue_natCast (w : Width) (n : Nat) : w.residue n = n % w.modulus := by
  unfold residue
  rw [← Int.natCast_emod]
  rfl

/-- The residue of an integer is its bit vector of the word size. -/
theorem residue_eq_toNat_ofInt (w : Width) (n : Int) :
    w.residue n = (BitVec.ofInt w.bits n).toNat := by
  rw [BitVec.toNat_ofInt]
  rfl

/-- Turning a word left moves its bits up, and those that leave at the top come in at the bottom. -/
theorem rotateLeft_of_lt (w : Width) {n : Nat} (hn : n < w.modulus) (amount : Int) :
    w.rotateLeft n amount = (if w.turn amount = 0 then n
      else n * 2 ^ w.turn amount % w.modulus ||| n / 2 ^ (w.bits - w.turn amount) : Nat) := by
  simp only [rotateLeft]
  by_cases hzero : w.turn amount = 0
  · rw [if_pos hzero, if_pos hzero]
  · have hup : (n : Int) * 2 ^ w.turn amount = (n * 2 ^ w.turn amount : Nat) := by
      push_cast
      rfl
    have hdown : (n : Int) / 2 ^ (w.bits - w.turn amount) =
        (n / 2 ^ (w.bits - w.turn amount) : Nat) := by
      push_cast
      rfl
    have hsmall : n / 2 ^ (w.bits - w.turn amount) < w.modulus :=
      Nat.lt_of_le_of_lt (Nat.div_le_self _ _) hn
    rw [if_neg hzero, if_neg hzero, hup, hdown, residue_natCast, residue_of_lt w hsmall]

/-- A word is turned left as its bits are. -/
theorem rotateLeft_toNat (w : Width) (v : BitVec w.bits) (amount : Int) :
    w.rotateLeft v.toNat amount = (v.rotateLeft (w.turn amount)).toNat := by
  have hv : v.toNat < w.modulus := v.isLt
  rw [w.rotateLeft_of_lt hv, BitVec.toNat_rotateLeft, Nat.mod_eq_of_lt (w.turn_lt amount),
    Nat.shiftLeft_eq, Nat.shiftRight_eq_div_pow]
  by_cases hzero : w.turn amount = 0
  · have hmod : v.toNat % 2 ^ w.bits = v.toNat := Nat.mod_eq_of_lt hv
    have hdiv : v.toNat / 2 ^ w.bits = 0 := Nat.div_eq_of_lt hv
    rw [if_pos hzero, hzero, Nat.pow_zero, Nat.mul_one, Nat.sub_zero, hmod, hdiv, Nat.or_zero]
  · rw [if_neg hzero]
    rfl

/-- Turning by a natural amount needs no reduction of the amount first. -/
theorem rotateLeft_toNat_natCast (w : Width) (v : BitVec w.bits) (amount : Nat) :
    w.rotateLeft v.toNat amount = (v.rotateLeft amount).toNat := by
  rw [rotateLeft_toNat, turn_natCast, BitVec.rotateLeft_mod_eq_rotateLeft]

end Width

end CellKeys
