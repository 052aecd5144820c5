import CellKeys.Proofs.Key.State
import Mathlib.Data.List.Perm.Basic
import Mathlib.Data.Nat.SuccPred
import Mathlib.Order.CompletePartialOrder
import Mathlib.Order.SuccPred.IntervalSucc

namespace CellKeys

namespace Value

/-- A sequence of these elements. -/
def IsSequence (v : Value) (items : List Value) : Prop :=
  v.length = .ok items.length ∧ v.elements = .ok items

end Value

/-- The cells of a state that is one cell away from the origin on one of its axes. -/
def unitCells (axes i : Nat) : List (Option Int) := (List.replicate axes (some 0)).set i (some 1)

/-- The state with one on one axis and zero on all others is such a state for unit cell sizes. -/
theorem cellsOf_unit {axes i : Nat} (hi : i < axes) :
    cellsOf ((List.replicate axes (.zero false)).set i .one) (List.replicate axes .one) =
      unitCells axes i := by
  have horigin : cellOf (.zero false) .one = some 0 := by decide +kernel
  have hone : cellOf .one .one = some 1 := by decide +kernel
  have hcells : cellsOf (List.replicate axes (.zero false)) (List.replicate axes .one) =
      List.replicate axes (some 0) := by
    rw [cellsOf, List.zipWith_replicate', horigin]
  have hx : (List.replicate axes (Binary64.zero false))[i]? = some (.zero false) := by
    rw [List.getElem?_replicate, if_pos hi]
  have hy : ((List.replicate axes (Binary64.zero false)).set i .one)[i]? = some .one :=
    List.getElem?_set_self (by rwa [List.length_replicate])
  have hdiv : (List.replicate axes Binary64.one)[i]? = some .one := by
    rw [List.getElem?_replicate, if_pos hi]
  rw [cellsOf_set hx hy hdiv fun j hj => cellsOf_congr (List.getElem?_set_ne (Ne.symm hj)), hcells,
    hone, unitCells]

namespace Width

/-- The number of bits for each of at least one axis. -/
theorem bitsFor_eq (w : Width) {axes : Nat} (haxes : 0 < axes) :
    bitsFor (.width w) (.int axes) = .ok (.int (w.bitsPerAxis axes)) := by
  have henough : (Value.int axes).belowOne = .ok false := by
    have hrational : ¬ ((axes : Int) : ℚ) < 1 := by
      rw [not_lt]
      exact_mod_cast haxes
    have hbelow : (Number.int axes).belowOne = false := decide_eq_false hrational
    exact congrArg Except.ok hbelow
  have hquotient : (Number.int w.bits).combine .floorDivide (.int axes) =
      .ok (.int (w.bitsPerAxis axes)) := by
    have hne : ¬ (axes : Int) = 0 := by omega
    have hfloor : (Number.int w.bits).combine .floorDivide (.int axes) =
        .ok (.int ((w.bits : Int).fdiv axes)) := if_neg hne
    rw [hfloor, Int.fdiv_eq_ediv_of_nonneg _ (Int.natCast_nonneg _)]
    rfl
  have hcombine := Operand.combine_numbers .floorDivide (x := .int w.bits) (y := .int axes) rfl rfl
  rw [hquotient] at hcombine
  have hbits : (Value.width w).toInt = .ok (w.bits : Int) := rfl
  simp only [bitsFor, henough, hbits, hcombine, bind, Except.bind]
  rfl

section

variable (w : Width) {axes : Nat}

theorem one_le_bitsPerAxis (haxes : 0 < axes) (h : axes ≤ w.bits) : 1 ≤ w.bitsPerAxis axes :=
  (Nat.le_div_iff_mul_le haxes).mpr (by rwa [Nat.one_mul])

/-- The band of each axis ends within the word. -/
theorem band_end_le {i : Nat} (hi : i < axes) : w.bitsPerAxis axes * (i + 1) ≤ w.bits :=
  Nat.le_trans (Nat.mul_le_mul_left _ hi) (Nat.div_mul_le_self w.bits axes)

theorem offset_lt (haxes : 0 < axes) (h : axes ≤ w.bits) {i : Nat} (hi : i < axes) :
    w.bitsPerAxis axes * i < w.bits := by
  have hend := w.band_end_le hi
  have hone := w.one_le_bitsPerAxis haxes h
  rw [Nat.mul_succ] at hend
  omega

theorem offset_inj (haxes : 0 < axes) (h : axes ≤ w.bits) {i j : Nat}
    (heq : w.bitsPerAxis axes * i = w.bitsPerAxis axes * j) : i = j :=
  Nat.eq_of_mul_eq_mul_left (w.one_le_bitsPerAxis haxes h) heq

end

/-- The cell at the origin adds nothing to a key. -/
theorem axisBits_zero (w : Width) (bits index : Nat) :
    w.axisBits bits index (some 0) = 0#w.bits := by
  have hcell : w.cellBits (some 0) = 0#w.bits := by cases w <;> rfl
  rw [axisBits, hcell, BitVec.mul_zero, BitVec.rotateLeft_def, BitVec.zero_shiftLeft,
    BitVec.zero_ushiftRight, BitVec.or_zero]

theorem axisBits_one (w : Width) (bits index : Nat) :
    w.axisBits bits index (some 1) = w.multiplierBits.rotateLeft (bits * index) := by
  have hcell : w.cellBits (some 1) = 1#w.bits := by cases w <;> rfl
  rw [axisBits, hcell, BitVec.mul_one]

theorem cellFold_replicate (w : Width) (bits index axes : Nat) :
    w.cellFold bits index (List.replicate axes (some 0)) = 0#w.bits := by
  induction axes generalizing index with
  | zero => rfl
  | succ axes ih => rw [List.replicate_succ, cellFold_cons, ih, axisBits_zero, BitVec.xor_zero]

/-- The key of a state one cell away from the origin is the multiplier, turned to the band of the
    axis. -/
theorem cellKey_unitCells (w : Width) {axes i : Nat} (hi : i < axes) :
    w.cellKey (unitCells axes i) = w.multiplierBits.rotateLeft (w.bitsPerAxis axes * i) := by
  have hlength : i < (List.replicate axes (some (0 : Int))).length := by simpa using hi
  have hxor := w.cellKey_xor_set (List.replicate axes (some 0)) hlength (some 1)
  rw [List.getElem_replicate, axisBits_zero, axisBits_one, cellKey, cellFold_replicate,
    BitVec.zero_xor, BitVec.zero_xor, List.length_replicate] at hxor
  exact hxor

end Width

/-- The word of a coordinate and its cell size on an axis that is not turned. -/
def unturnedWord (w : Width) (axis : Value × Value) : Except Fault Nat := do
  let quotient ← quantize axis.1 axis.2
  return (← axisHash w quotient 0).toNat

/-- One more axis folded into a word, if there are both words. -/
def foldUnturned (w : Width) (word : Option Nat) (axis : Value × Value) : Option Nat := do
  return (← word) ^^^ (← (unturnedWord w axis).toOption)

instance (w : Width) : RightCommutative (foldUnturned w) where
  right_comm word a b := by
    cases word with
    | none => rfl
    | some word =>
      cases ha : (unturnedWord w a).toOption <;> cases hb : (unturnedWord w b).toOption <;>
        simp only [foldUnturned, ha, hb, Option.bind_eq_bind, Option.bind_some, Option.bind_none,
          Option.pure_def]
      ac_rfl

theorem foldl_foldUnturned_none (w : Width) (axes : List (Value × Value)) :
    axes.foldl (foldUnturned w) none = none := by
  induction axes with
  | nil => rfl
  | cons axis axes ih => exact ih

theorem foldAxes_zero_cons (w : Width) (index word : Nat) (v d : Value) (vs ds : List Value) :
    foldAxes w 0 index (v :: vs) (d :: ds) word =
      unturnedWord w (v, d) >>= fun hashed => foldAxes w 0 (index + 1) vs ds (word ^^^ hashed) := by
  rw [foldAxes, unturnedWord]
  simp only [Nat.cast_zero, Int.zero_mul, bind_assoc, pure_bind]

/-- Without bits for an axis the words are folded as they are. -/
theorem toOption_foldAxes (w : Width) (index word : Nat) (vs ds : List Value) :
    (foldAxes w 0 index vs ds word).toOption = (vs.zip ds).foldl (foldUnturned w) (some word) := by
  induction vs generalizing ds index word with
  | nil =>
    rw [foldAxes]
    · rfl
    · intro v vs d ds hvs
      cases hvs
  | cons v vs ih =>
    cases ds with
    | nil =>
      rw [foldAxes]
      · rfl
      · intro v vs d ds hvs hds
        cases hds
    | cons d ds =>
      rw [foldAxes_zero_cons, List.zip_cons_cons, List.foldl_cons]
      cases hword : unturnedWord w (v, d) with
      | error e =>
        have hnone : foldUnturned w (some word) (v, d) = none := by rw [foldUnturned, hword]; rfl
        rw [hnone, foldl_foldUnturned_none]
        rfl
      | ok hashed =>
        have hsome : foldUnturned w (some word) (v, d) = some (word ^^^ hashed) := by
          rw [foldUnturned, hword]
          rfl
        rw [hsome]
        exact ih _ _ _

/-- With more axes than bits a state and its resolution may be reordered together. -/
theorem toOption_stateKey_perm (w : Width) {vs ds us es : List Value} (hmany : w.bits < ds.length)
    (hv : vs.length = ds.length) (hu : us.length = es.length)
    (hperm : (us.zip es).Perm (vs.zip ds)) :
    (stateKey w us es).toOption = (stateKey w vs ds).toOption := by
  have haxes : es.length = ds.length := by
    have hlength := hperm.length_eq
    rwa [List.length_zip, List.length_zip, hu, hv, Nat.min_self, Nat.min_self] at hlength
  have hbits : w.bitsPerAxis ds.length = 0 := Nat.div_eq_of_lt hmany
  have hds : ds.isEmpty = false := by
    rw [List.isEmpty_eq_false_iff, ← List.length_pos_iff]
    omega
  have hes : es.isEmpty = false := by
    rw [List.isEmpty_eq_false_iff, ← List.length_pos_iff]
    omega
  have hleft : stateKey w us es = foldAxes w 0 0 us es 0 := by
    rw [stateKey, if_neg (not_not.mpr hu), hes, if_neg Bool.false_ne_true, haxes, hbits]
  have hright : stateKey w vs ds = foldAxes w 0 0 vs ds 0 := by
    rw [stateKey, if_neg (not_not.mpr hv), hds, if_neg Bool.false_ne_true, hbits]
  rw [hleft, hright, toOption_foldAxes, toOption_foldAxes, hperm.foldl_eq]

theorem keyOfState_of_sequences (w : Width) {values resolution : Value} {vs ds : List Value}
    (hv : values.IsSequence vs) (hr : resolution.IsSequence ds) :
    keyOfState w values resolution = stateKey w vs ds := by
  simp only [keyOfState, hv.1, hv.2, hr.1, hr.2, bind, Except.bind]
  by_cases hlength : vs.length = ds.length
  · rw [if_neg (not_not.mpr hlength)]
  · rw [if_pos hlength, stateKey, if_pos hlength]
    rfl

/-- States that are one cell away from the origin on different axes have different keys. -/
theorem unit_keys_ne (w : Width) {axes i j : Nat} (haxes : 0 < axes) (h : axes ≤ w.bits)
    (hi : i < axes) (hj : j < axes) (hne : i ≠ j) :
    (w.cellKey (unitCells axes i)).toNat ≠ (w.cellKey (unitCells axes j)).toNat := by
  rw [ne_eq, BitVec.toNat_inj, w.cellKey_unitCells hi, w.cellKey_unitCells hj]
  intro heq
  exact hne (w.offset_inj haxes h
    (w.multiplierBits_rotateLeft_inj (w.offset_lt haxes h hi) (w.offset_lt haxes h hj) heq))

namespace Width

/-- What it means that each of these axes has a band of this many bits. -/
structure HasBands (w : Width) (axes bits : Nat) : Prop where
  pos : 1 ≤ bits
  inside : ∀ i < axes, Set.Ico (bits * i) (bits * (i + 1)) ⊆ Set.Ico 0 w.bits
  disjoint : ∀ i < axes, ∀ j < axes, i ≠ j →
    Disjoint (Set.Ico (bits * i) (bits * (i + 1))) (Set.Ico (bits * j) (bits * (j + 1)))
  turns : ∀ i < axes, ∀ j < axes, i ≠ j → w.turn (bits * i : Nat) ≠ w.turn (bits * j : Nat)
  /-- States one cell away from the origin on different axes have different keys. -/
  keys : ∀ i < axes, ∀ j < axes, i ≠ j →
    ∀ (values others resolution : Value) (xs ys : List Binary64), values.IsVector xs →
      others.IsVector ys → resolution.IsVector (List.replicate axes .one) →
      xs.length = axes → ys.length = axes →
      cellsOf xs (List.replicate axes .one) = unitCells axes i →
      cellsOf ys (List.replicate axes .one) = unitCells axes j →
      ∃ key other, keyOfState w values resolution = .ok key ∧
        keyOfState w others resolution = .ok other ∧ key ≠ other

/-- What it means that these axes have no bits of their own. -/
structure LacksBands (w : Width) (axes bits : Nat) : Prop where
  turns : ∀ i, bits * i = 0
  /-- A state and its resolution, of any kinds, may be reordered together. -/
  keys : ∀ (values resolution others sizes : Value) (vs ds us es : List Value),
    values.IsSequence vs → resolution.IsSequence ds → others.IsSequence us → sizes.IsSequence es →
    ds.length = axes → vs.length = axes → us.length = es.length → (us.zip es).Perm (vs.zip ds) →
    (keyOfState w others sizes).toOption = (keyOfState w values resolution).toOption

theorem hasBands (w : Width) {axes : Nat} (haxes : 0 < axes) (h : axes ≤ w.bits) :
    w.HasBands axes (w.bitsPerAxis axes) where
  pos := w.one_le_bitsPerAxis haxes h
  inside i hi := Set.Ico_subset_Ico (Nat.zero_le _) (w.band_end_le hi)
  disjoint i hi j hj hne := by
    have hmono : Monotone fun k : Nat => w.bitsPerAxis axes * k := by
      intro a b hab
      exact Nat.mul_le_mul_left _ hab
    exact Monotone.pairwise_disjoint_on_Ico_succ hmono hne
  turns i hi j hj hne := by
    rw [w.turn_natCast, w.turn_natCast, Nat.mod_eq_of_lt (w.offset_lt haxes h hi),
      Nat.mod_eq_of_lt (w.offset_lt haxes h hj)]
    exact fun heq => hne (w.offset_inj haxes h heq)
  keys i hi j hj hne values others resolution xs ys hv ho hr hx hy hxs hys := by
    have hlength := List.length_replicate (n := axes) (a := Binary64.one)
    have hsome : List.replicate axes Binary64.one ≠ [] := List.ne_nil_of_length_pos (by omega)
    refine ⟨_, _, keyOfState_eq w hv hr (by omega) hsome, keyOfState_eq w ho hr (by omega) hsome,
      ?_⟩
    rw [hxs, hys]
    exact unit_keys_ne w haxes h hi hj hne

theorem lacksBands (w : Width) {axes : Nat} (h : w.bits < axes) :
    w.LacksBands axes (w.bitsPerAxis axes) where
  turns i := by
    have hzero : w.bitsPerAxis axes = 0 := Nat.div_eq_of_lt h
    rw [hzero, Nat.zero_mul]
  keys values resolution others sizes vs ds us es hv hr ho hs hds hvs hus hperm := by
    rw [keyOfState_of_sequences w ho hs, keyOfState_of_sequences w hv hr]
    exact toOption_stateKey_perm w (by omega) (by omega) hus hperm

end Width

/-- Every axis has an equal number of whole bits. As long as there are no more axes than bits these
    are bands of the word, and with more axes nothing is turned. -/
theorem axis_bands (w : Width) {axes : Nat} (haxes : 0 < axes) :
    ∃ bits : Nat, Width.bitsFor (.width w) (.int axes) = .ok (.int bits) ∧
      w.bitsPerAxis axes = bits ∧ (axes ≤ w.bits → w.HasBands axes bits) ∧
      (w.bits < axes → w.LacksBands axes bits) :=
  ⟨_, w.bitsFor_eq haxes, rfl, w.hasBands haxes, w.lacksBands⟩

theorem axis_bands_thirds :
    (∃ key other : Nat,
      keyOfState .w32 (.tuple ([.one, .zero false, .zero false].map .ofBinary64))
        (.tuple ([.one, .one, .one].map .ofBinary64)) = .ok key ∧
      keyOfState .w32 (.tuple ([.zero false, .zero false, .one].map .ofBinary64))
        (.tuple ([.one, .one, .one].map .ofBinary64)) = .ok other ∧ key ≠ other) ∧
    (keyOfState .w32 (.tuple (List.replicate 32 (.int 3) ++ [.int 7]))
      (.tuple (List.replicate 32 (.int 1) ++ [.int 2]))).toOption =
      (keyOfState .w32 (.tuple (.int 7 :: List.replicate 32 (.int 3)))
        (.tuple (.int 2 :: List.replicate 32 (.int 1)))).toOption := by
  constructor
  · obtain ⟨bits, -, -, hbands, -⟩ := axis_bands .w32 (show 0 < 3 by decide)
    have hfirst := cellsOf_unit (show 0 < 3 by decide)
    have hlast := cellsOf_unit (show 2 < 3 by decide)
    exact (hbands (by decide)).keys 0 (by decide) 2 (by decide) (by decide) _ _ _ _ _
      (.tuple (Value.forall₂_ofBinary64 _)) (.tuple (Value.forall₂_ofBinary64 _))
      (.tuple (Value.forall₂_ofBinary64 _)) rfl rfl hfirst hlast
  · obtain ⟨bits, -, -, -, hlacks⟩ := axis_bands .w32 (show 0 < 33 by decide)
    have hperm : ((List.replicate 32 (Value.int 3) ++ [Value.int 7]).zip
        (List.replicate 32 (Value.int 1) ++ [Value.int 2])).Perm
        ((Value.int 7 :: List.replicate 32 (Value.int 3)).zip
          (Value.int 2 :: List.replicate 32 (Value.int 1))) := by
      rw [List.zip_append (by rw [List.length_replicate, List.length_replicate])]
      exact List.perm_append_singleton (Value.int 7, Value.int 2) _
    exact (hlacks (by decide)).keys _ _ _ _ _ _ _ _ ⟨rfl, rfl⟩ ⟨rfl, rfl⟩ ⟨rfl, rfl⟩ ⟨rfl, rfl⟩ rfl
      rfl rfl hperm

end CellKeys
