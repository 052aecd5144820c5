import CellKeys.Proofs.Fault
import CellKeys.Proofs.Key.Cells
import CellKeys.Proofs.Value.Binary64

namespace CellKeys

open Value

/-- Folding the axes of a state folds the words of their cells. -/
theorem foldAxes_eq (w : Width) (bits : Nat) {vs ds : List Value} {xs divs : List Binary64}
    (hv : List.Forall₂ IsBinary64 vs xs) (hd : List.Forall₂ IsBinary64 ds divs) (axis : Nat)
    (word : BitVec w.bits) :
    foldAxes w bits axis vs ds word.toNat =
      .ok (word ^^^ w.cellFold bits axis (cellsOf xs divs)).toNat := by
  induction hv generalizing ds divs axis word with
  | nil =>
    simp only [cellsOf, List.zipWith_nil_left, Width.cellFold_nil, BitVec.xor_zero]
    rfl
  | @cons v x vs xs hx hxs ih =>
    cases hd with
    | nil =>
      simp only [cellsOf, List.zipWith_nil_right, Width.cellFold_nil, BitVec.xor_zero]
      rfl
    | @cons d div ds divs hdiv hdivs =>
      obtain ⟨q, hq, hquotient⟩ := quantize_isBinary64 hx hdiv
      have hword : axisHash w q (bits * axis) =
          .ok ((w.axisBits bits axis (cellOf x div)).toNat : Int) := by
        rw [axisHash, hquotient.cell, ← cellOf_eq, ← w.axisWord_natCast]
        rfl
      have hfold : foldAxes w bits axis (v :: vs) (d :: ds) word.toNat =
          foldAxes w bits (axis + 1) vs ds
            (word.toNat ^^^ (w.axisBits bits axis (cellOf x div)).toNat) := by
        rw [foldAxes, hq]
        simp only [bind, Except.bind, hword, Int.toNat_natCast]
      rw [hfold, ← BitVec.toNat_xor, ih hdivs, BitVec.xor_assoc]
      simp only [cellsOf, List.zipWith_cons_cons, Width.cellFold_cons]

theorem stateKey_eq (w : Width) {vs ds : List Value} {xs divs : List Binary64}
    (hv : List.Forall₂ IsBinary64 vs xs) (hd : List.Forall₂ IsBinary64 ds divs)
    (hlength : xs.length = divs.length) (hne : divs ≠ []) :
    stateKey w vs ds = .ok (w.cellKey (cellsOf xs divs)).toNat := by
  have hvs := hv.length_eq
  have hds := hd.length_eq
  have hempty := List.isEmpty_eq_false_iff.mpr (ne_nil_of_length_eq hds hne)
  rw [stateKey, if_neg (by omega), hempty, if_neg (by decide), hds]
  have hfold := foldAxes_eq w (w.bitsPerAxis divs.length) hv hd 0 0#w.bits
  rw [BitVec.zero_xor] at hfold
  rw [Width.cellKey, length_cellsOf hlength]
  exact hfold

/-- States with as many coordinates in the same cells have the same key, or none for the same
    reason. -/
theorem stateKey_congr (w : Width) {vs us ds es : List Value} {xs ys divs sizes : List Binary64}
    (hv : List.Forall₂ IsBinary64 vs xs) (hu : List.Forall₂ IsBinary64 us ys)
    (hd : List.Forall₂ IsBinary64 ds divs) (he : List.Forall₂ IsBinary64 es sizes)
    (hxs : xs.length = ys.length) (hdivs : divs.length = sizes.length)
    (hcells : cellsOf xs divs = cellsOf ys sizes) : stateKey w vs ds = stateKey w us es := by
  have hgiven : vs.length = us.length := by rw [hv.length_eq, hxs, hu.length_eq]
  have haxes : ds.length = es.length := by rw [hd.length_eq, hdivs, he.length_eq]
  by_cases hlength : xs.length = divs.length
  · by_cases hne : divs = []
    · have hsizes : sizes = [] := List.eq_nil_of_length_eq_zero (by rw [← hdivs, hne]; rfl)
      subst hne hsizes
      cases hd
      cases he
      simp only [stateKey, hgiven, List.isEmpty_nil, if_true]
    · have hsome := ne_nil_of_length_eq hdivs.symm hne
      have hcount : ys.length = sizes.length := by rw [← hxs, hlength, hdivs]
      rw [stateKey_eq w hv hd hlength hne, stateKey_eq w hu he hcount hsome, hcells]
  · have hcount : us.length ≠ es.length := by
      rwa [hu.length_eq, he.length_eq, ← hxs, ← hdivs]
    simp only [stateKey, hgiven, haxes, ne_eq, hcount, not_false_eq_true, if_true]

/-- The key of sequences of equal length, at least one, is the key of their cells. -/
theorem keyOfState_eq (w : Width) {values resolution : Value} {xs divs : List Binary64}
    (hv : values.IsVector xs) (hr : resolution.IsVector divs) (hlength : xs.length = divs.length)
    (hne : divs ≠ []) :
    keyOfState w values resolution = .ok (w.cellKey (cellsOf xs divs)).toNat := by
  obtain ⟨vs, hvs, hvx⟩ := hv.elements
  obtain ⟨ds, hds, hdx⟩ := hr.elements
  rw [keyOfState, hv.length, hr.length]
  simp only [bind, Except.bind, hlength, ne_eq, not_true_eq_false, if_false, hvs, hds]
  exact stateKey_eq w hvx hdx hlength hne

theorem keyOfState_of_length_ne (w : Width) {values resolution : Value} {xs divs : List Binary64}
    (hv : values.IsVector xs) (hr : resolution.IsVector divs) (hlength : xs.length ≠ divs.length) :
    keyOfState w values resolution = .error (.axisCount xs.length divs.length) := by
  rw [keyOfState, hv.length, hr.length]
  simp only [bind, Except.bind, if_pos hlength]
  rfl

theorem keyOfState_nil (w : Width) {values resolution : Value} (hv : values.IsVector [])
    (hr : resolution.IsVector []) : keyOfState w values resolution = .error (.noAxes "0") := by
  obtain ⟨vs, hvs, hvx⟩ := hv.elements
  obtain ⟨ds, hds, hdx⟩ := hr.elements
  cases hvx
  cases hdx
  rw [keyOfState, hv.length, hr.length]
  simp only [bind, Except.bind, hvs, hds]
  rfl

/-- Sequences of one length in the same cells have the same key, or none for the same reason. -/
theorem keyOfState_congr (w : Width) {values others resolution : Value} {xs ys divs : List Binary64}
    (hv : values.IsVector xs) (ho : others.IsVector ys) (hr : resolution.IsVector divs)
    (hlength : ys.length = xs.length) (hcells : cellsOf ys divs = cellsOf xs divs) :
    keyOfState w others resolution = keyOfState w values resolution := by
  by_cases heq : xs.length = divs.length
  · by_cases hne : divs = []
    · subst hne
      rw [List.length_nil, List.length_eq_zero_iff] at heq
      subst heq
      rw [List.length_nil, List.length_eq_zero_iff] at hlength
      subst hlength
      rw [keyOfState_nil w hv hr, keyOfState_nil w ho hr]
    · rw [keyOfState_eq w hv hr heq hne, keyOfState_eq w ho hr (by omega) hne, hcells]
  · rw [keyOfState_of_length_ne w hv hr heq, keyOfState_of_length_ne w ho hr (by omega), hlength]

/-- For both word sizes, any number of axes and all binary64 coordinates and cell sizes, the key is
    the word that the cells determine, so states with the same cells have the same key. Only
    sequences of different lengths and empty ones are refused. -/
theorem state_key_function_of_cells (w : Width) {values resolution : Value}
    {xs divs : List Binary64} (hv : values.IsVector xs) (hr : resolution.IsVector divs) :
    (xs.length = divs.length → divs ≠ [] →
      ∃ key : Nat, keyOfState w values resolution = .ok key ∧ key < 2 ^ w.bits ∧
        key = (w.cellKey (cellsOf xs divs)).toNat ∧
        ∀ (others : Value) (ys : List Binary64), others.IsVector ys → ys.length = divs.length →
          cellsOf ys divs = cellsOf xs divs → keyOfState w others resolution = .ok key) ∧
    (xs.length ≠ divs.length →
      keyOfState w values resolution = .error (.axisCount xs.length divs.length)) ∧
    (xs = [] → divs = [] → keyOfState w values resolution = .error (.noAxes "0")) := by
  refine ⟨?_, keyOfState_of_length_ne w hv hr, ?_⟩
  · intro hlength hne
    refine ⟨_, keyOfState_eq w hv hr hlength hne, BitVec.isLt _, rfl, ?_⟩
    intro others ys ho hys hsame
    rw [keyOfState_eq w ho hr hys hne, hsame]
  · rintro rfl rfl
    exact keyOfState_nil w hv hr

/-- A negative quotient next to a NaN over a zero. -/
theorem state_key_function_of_cells_mixed :
    Value.IsVector (.tuple [.float (.ofInt (-3)) .none, .float .nan .none]) [.ofInt (-3), .nan] ∧
    Value.IsVector (.array .float64 ((Tensor.ofList [.ofInt 2, .zero true]).map .float) .none)
      [.ofInt 2, .zero true] ∧
    cellsOf [.ofInt (-3), .nan] [.ofInt 2, .zero true] = [some (-2), none] ∧
    keyOfState .w32 (.tuple [.float (.ofInt (-3)) .none, .float .nan .none])
      (.array .float64 ((Tensor.ofList [.ofInt 2, .zero true]).map .float) .none) =
      .ok (Width.w32.cellKey [some (-2), none]).toNat := by
  have hv : Value.IsVector (.tuple [.float (.ofInt (-3)) .none, .float .nan .none])
      [.ofInt (-3), .nan] := .tuple (.cons (.float _ _) (.cons (.float _ _) .nil))
  have hr := Value.IsVector.array [.ofInt 2, .zero true] .none
  have hcells : cellsOf [.ofInt (-3), .nan] [.ofInt 2, .zero true] = [some (-2), none] := by
    decide +kernel
  obtain ⟨key, hkey, -, hvalue, -⟩ := (state_key_function_of_cells .w32 hv hr).1 (by simp) (by simp)
  exact ⟨hv, hr, hcells, by rw [hkey, hvalue, hcells]⟩

end CellKeys
