import CellKeys.Key.Argument
import CellKeys.Proofs.Axis.Rotation
import Mathlib.Data.Int.ModEq

namespace CellKeys

namespace Width

/-- The place that the bit at a place comes from when a word is turned left. -/
def sourceOf (w : Width) (amount : Int) (place : Nat) : Nat :=
  ((place - amount) % (w.bits : Int)).toNat

/-- A word that has every bit of another one, turned left by this amount. -/
structure IsTurned (w : Width) (amount : Int) (word turned : Nat) : Prop where
  lt : turned < 2 ^ w.bits
  bit : ∀ place < w.bits, turned.testBit place = word.testBit (w.sourceOf amount place)

section

variable (w : Width)

theorem natCast_sourceOf (amount : Int) (place : Nat) :
    (w.sourceOf amount place : Int) = (place - amount) % (w.bits : Int) := by
  have hpos := w.bits_pos
  exact Int.toNat_of_nonneg (Int.emod_nonneg _ (by omega))

theorem sourceOf_lt (amount : Int) (place : Nat) : w.sourceOf amount place < w.bits := by
  have hpos := w.bits_pos
  have hlt := Int.emod_lt_of_pos (place - amount) (show (0 : Int) < w.bits by omega)
  rw [← natCast_sourceOf] at hlt
  omega

theorem sourceOf_sourceOf (a b : Int) (place : Nat) :
    w.sourceOf a (w.sourceOf b place) = w.sourceOf (a + b) place := by
  apply Int.ofNat_inj.mp
  rw [natCast_sourceOf, natCast_sourceOf, natCast_sourceOf, Int.emod_sub_emod]
  congr 1
  omega

theorem sourceOf_congr {a b : Int} (h : a ≡ b [ZMOD w.bits]) (place : Nat) :
    w.sourceOf a place = w.sourceOf b place := by
  have hsource : (place - a) % (w.bits : Int) = (place - b) % (w.bits : Int) := h.sub_left place
  rw [sourceOf, sourceOf, hsource]

theorem sourceOf_zero {place : Nat} (h : place < w.bits) : w.sourceOf 0 place = place := by
  apply Int.ofNat_inj.mp
  rw [natCast_sourceOf, Int.sub_zero, Int.emod_eq_of_lt (by omega) (by omega)]

/-- A bit that is turned up by what is left of an amount comes from the place that the amount tells.
    -/
theorem sourceOf_eq (amount : Int) (place : Nat) :
    (place + (w.bits - w.turn amount)) % w.bits = w.sourceOf amount place := by
  have hpos := w.bits_pos
  have hturn : (w.turn amount : Int) = amount % (w.bits : Int) :=
    Int.toNat_of_nonneg (Int.emod_nonneg _ (by omega))
  have hlt := w.turn_lt amount
  have hsum : ((place + (w.bits - w.turn amount) : Nat) : Int) =
      place - amount % (w.bits : Int) + w.bits := by omega
  apply Int.ofNat_inj.mp
  rw [Int.natCast_emod, natCast_sourceOf, hsum, Int.add_emod_right, Int.sub_emod_emod]

end

namespace IsTurned

variable {w : Width} {a b : Int} {x y r s : Nat}

/-- The bits below the word size tell a word from all others. -/
theorem unique (hr : w.IsTurned a x r) (hs : w.IsTurned a x s) : r = s := by
  apply Nat.eq_of_testBit_eq
  intro place
  by_cases hplace : place < w.bits
  · rw [hr.bit place hplace, hs.bit place hplace]
  · have hlarge : 2 ^ w.bits ≤ 2 ^ place := Nat.pow_le_pow_right (by decide) (by omega)
    rw [Nat.testBit_lt_two_pow (Nat.lt_of_lt_of_le hr.lt hlarge),
      Nat.testBit_lt_two_pow (Nat.lt_of_lt_of_le hs.lt hlarge)]

theorem zero (h : x < 2 ^ w.bits) : w.IsTurned 0 x x where
  lt := h
  bit := fun place hplace => by rw [sourceOf_zero w hplace]

theorem trans (hr : w.IsTurned a x r) (hs : w.IsTurned b r s) : w.IsTurned (a + b) x s where
  lt := hs.lt
  bit := fun place hplace => by
    rw [hs.bit place hplace, hr.bit _ (w.sourceOf_lt b place), sourceOf_sourceOf]

theorem congr (h : a ≡ b [ZMOD w.bits]) (hr : w.IsTurned a x r) : w.IsTurned b x r where
  lt := hr.lt
  bit := fun place hplace => by rw [hr.bit place hplace, w.sourceOf_congr h]

theorem xor (hr : w.IsTurned a x r) (hs : w.IsTurned a y s) :
    w.IsTurned a (x ^^^ y) (r ^^^ s) where
  lt := Nat.xor_lt_two_pow hr.lt hs.lt
  bit := fun place hplace => by
    rw [Nat.testBit_xor, Nat.testBit_xor, hr.bit place hplace, hs.bit place hplace]

end IsTurned

/-- Turning a word gives the word of the turned bits. -/
theorem exists_rotateValue (w : Width) {x : Nat} (hx : x < 2 ^ w.bits) (amount : Int) :
    ∃ r : Nat, w.rotateValue (.int x) (.value (.int amount)) = .ok (.int r) ∧
      w.IsTurned amount x r := by
  obtain ⟨v, rfl⟩ : ∃ v : BitVec w.bits, v.toNat = x := ⟨.ofNat w.bits x, Nat.mod_eq_of_lt hx⟩
  refine ⟨(v.rotateLeft (w.turn amount)).toNat, ?_, BitVec.isLt _, ?_⟩
  · exact congrArg (fun r => Except.ok (Value.int r)) (w.rotateLeft_toNat v amount)
  · intro place hplace
    rw [BitVec.testBit_toNat, BitVec.testBit_toNat, Word.getLsbD_rotateLeft_mod _ _ hplace,
      Nat.mod_eq_of_lt (w.turn_lt amount), sourceOf_eq]

theorem rotateValue_of_isTurned (w : Width) {x r : Nat} (hx : x < 2 ^ w.bits) {amount : Int}
    (hr : w.IsTurned amount x r) :
    w.rotateValue (.int x) (.value (.int amount)) = .ok (.int r) := by
  obtain ⟨s, hs, hturned⟩ := w.exists_rotateValue hx amount
  rw [hs, hturned.unique hr]

/-- For both word sizes and all integer amounts, turning a word left gives the word whose bits come
    from that many places below, counted from the top again below the bottom. So turns add up, a
    turn by the opposite amount undoes a turn, amounts that differ by full turns are the same turn,
    and turning spreads over exclusive or. -/
theorem rotation_moves_bits (w : Width) {x y : Nat} (hx : x < 2 ^ w.bits) (hy : y < 2 ^ w.bits)
    (a b : Int) :
    ∃ r s : Nat, w.rotateValue (.int x) (.value (.int a)) = .ok (.int r) ∧ r < 2 ^ w.bits ∧
      (∀ place < w.bits,
        r.testBit place = x.testBit ((place - a) % (w.bits : Int)).toNat) ∧
      w.rotateValue (.int r) (.value (.int b)) =
        w.rotateValue (.int x) (.value (.int (a + b))) ∧
      w.rotateValue (.int r) (.value (.int (-a))) = .ok (.int x) ∧
      (∀ c : Int, c ≡ a [ZMOD w.bits] →
        w.rotateValue (.int x) (.value (.int c)) = .ok (.int r)) ∧
      w.rotateValue (.int y) (.value (.int a)) = .ok (.int s) ∧
      w.rotateValue (.int (x ^^^ y : Nat)) (.value (.int a)) = .ok (.int (r ^^^ s : Nat)) := by
  obtain ⟨r, hxr, hr⟩ := w.exists_rotateValue hx a
  obtain ⟨s, hys, hs⟩ := w.exists_rotateValue hy a
  refine ⟨r, s, hxr, hr.lt, hr.bit, ?_, ?_, ?_, hys, ?_⟩
  · obtain ⟨t, hrt, ht⟩ := w.exists_rotateValue hr.lt b
    rw [hrt, w.rotateValue_of_isTurned hx (hr.trans ht)]
  · obtain ⟨t, hrt, ht⟩ := w.exists_rotateValue hr.lt (-a)
    have hback := hr.trans ht
    rw [Int.add_right_neg] at hback
    rw [hrt, hback.unique (.zero hx)]
  · intro c hc
    exact w.rotateValue_of_isTurned hx (hr.congr hc.symm)
  · exact w.rotateValue_of_isTurned (Nat.xor_lt_two_pow hx hy) (hr.xor hs)

/-- A word of 32 bits turned right by one, and by one and ten full turns. -/
theorem rotation_moves_bits_right :
    let word : Nat := 0x80000001
    let other : Nat := 0xffff
    word < 2 ^ Width.w32.bits ∧ other < 2 ^ Width.w32.bits ∧ -321 ≡ -1 [ZMOD Width.w32.bits] ∧
      Width.w32.rotateValue (.int word) (.value (.int (-321))) = .ok (.int 0xc0000000) ∧
      Width.w32.rotateValue (.int 0xc0000000) (.value (.int 1)) = .ok (.int word) := by
  intro word other
  have hword : word < 2 ^ Width.w32.bits := by decide
  have hother : other < 2 ^ Width.w32.bits := by decide
  have hturns : -321 ≡ -1 [ZMOD Width.w32.bits] := by decide
  obtain ⟨r, s, hr, -, -, -, hback, hsame, -⟩ := rotation_moves_bits .w32 hword hother (-1) 0
  have hvalue : Width.w32.rotateLeft word (-1) = 0xc0000000 := by decide +kernel
  cases hr.symm.trans (congrArg (fun turned => Except.ok (Value.int turned)) hvalue)
  exact ⟨hword, hother, hturns, hsame _ hturns, hback⟩

end Width

end CellKeys
