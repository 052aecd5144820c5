import CellKeys.Proofs.Key.State

namespace CellKeys

open Value

/-- The exclusive or of the keys of two states that agree in all cells but that of one axis, as
    states with equal coordinates on the other axes do, is that of the two words of this axis,
    turned to its band. The keys are equal exactly if the residues of both cells are, which never
    holds for different cells that are less than the number of words apart. -/
theorem state_keys_xor_of_one_axis (w : Width) {values others resolution : Value}
    {xs ys divs : List Binary64} (hv : values.IsVector xs) (ho : others.IsVector ys)
    (hr : resolution.IsVector divs) (hx : xs.length = divs.length) (hy : ys.length = divs.length)
    {i : Nat} {x y div : Binary64} (hxi : xs[i]? = some x) (hyi : ys[i]? = some y)
    (hdi : divs[i]? = some div)
    (hsame : ∀ j, j ≠ i → (cellsOf ys divs)[j]? = (cellsOf xs divs)[j]?) :
    ∃ key other u v : Nat, keyOfState w values resolution = .ok key ∧
      keyOfState w others resolution = .ok other ∧
      u = (w.cellBits (cellOf x div)).toNat ∧ v = (w.cellBits (cellOf y div)).toNat ∧
      ((key ^^^ other : Nat) : Int) =
        w.rotateLeft (w.multiplier * u % 2 ^ w.bits ^^^ w.multiplier * v % 2 ^ w.bits : Nat)
          (i * (w.bits / divs.length) : Nat) ∧
      (key = other ↔ u = v) ∧
      ∀ b c : Int, cellOf x div = some b → cellOf y div = some c → b ≠ c →
        (b - c).natAbs < 2 ^ w.bits → key ≠ other := by
  have hne : divs ≠ [] := by
    rintro rfl
    cases hdi
  have hlength := length_cellsOf hx
  have hcells := cellsOf_set hxi hyi hdi hsame
  obtain ⟨hlt, hcell⟩ := List.getElem?_eq_some_iff.mp (cellsOf_getElem? hxi hdi)
  have hxor := w.cellKey_xor_set (cellsOf xs divs) hlt (cellOf y div)
  have hinj := w.cellKey_set_inj (cellsOf xs divs) hlt (cellOf y div)
  rw [hcell, ← hcells] at hxor hinj
  refine ⟨_, _, _, _, keyOfState_eq w hv hr hx hne, keyOfState_eq w ho hr hy hne, rfl, rfl, ?_, ?_,
    ?_⟩
  · have hspread : ∀ bits : BitVec w.bits,
        w.multiplier * bits.toNat % 2 ^ w.bits = (w.multiplierBits * bits).toNat :=
      fun bits => (w.toNat_multiplierBits_mul bits).symm
    rw [← BitVec.toNat_xor, hxor, hspread, hspread, ← BitVec.toNat_xor,
      w.rotateLeft_toNat_natCast, Word.rotateLeft_xor, hlength, Nat.mul_comm i]
    rfl
  · rw [BitVec.toNat_inj, BitVec.toNat_inj]
    exact hinj
  · intro b c hb hc hbc hnear heq
    rw [BitVec.toNat_inj, hinj, hb, hc] at heq
    exact w.cellBits_ne hbc hnear heq

/-- Three axes, which do not divide the word, with cells 2 and -1 on the middle one. -/
theorem state_keys_xor_of_one_axis_middle :
    (∀ j, j ≠ 1 →
      ([.nan, .ofInt (-1), .ofInt 7] : List Binary64)[j]? = [.nan, .ofInt 5, .ofInt 7][j]?) ∧
    ∃ key other : Nat,
      keyOfState .w64 (.list [.float .nan .none, .float (.ofInt 5) .none, .float (.ofInt 7) .none]
        .none) (.tuple (List.replicate 3 (.float (.ofInt 2) .none))) = .ok key ∧
      keyOfState .w64 (.array .float64 ((Tensor.ofList [.nan, .ofInt (-1), .ofInt 7]).map .float)
        .none) (.tuple (List.replicate 3 (.float (.ofInt 2) .none))) = .ok other ∧
      key ≠ other := by
  have hv : Value.IsVector
      (.list [.float .nan .none, .float (.ofInt 5) .none, .float (.ofInt 7) .none] .none)
      [.nan, .ofInt 5, .ofInt 7] :=
    .list _ (.cons (.float _ _) (.cons (.float _ _) (.cons (.float _ _) .nil)))
  have ho := Value.IsVector.array [.nan, .ofInt (-1), .ofInt 7] .none
  have hr : Value.IsVector (.tuple (List.replicate 3 (.float (.ofInt 2) .none)))
      [.ofInt 2, .ofInt 2, .ofInt 2] :=
    .tuple (.cons (.float _ _) (.cons (.float _ _) (.cons (.float _ _) .nil)))
  have hmiddle : ∀ (a b c d : Binary64) (j : Nat), j ≠ 1 → [a, b, d][j]? = [a, c, d][j]?
    | _, _, _, _, 0, _ => rfl
    | _, _, _, _, 1, h => absurd rfl h
    | _, _, _, _, _ + 2, _ => rfl
  have hsame := hmiddle .nan (.ofInt (-1)) (.ofInt 5) (.ofInt 7)
  have hfirst : cellOf (.ofInt 5) (.ofInt 2) = some 2 := by decide +kernel
  have hsecond : cellOf (.ofInt (-1)) (.ofInt 2) = some (-1) := by decide +kernel
  obtain ⟨key, other, u, v, hkey, hother, -, -, -, -, hnear⟩ :=
    state_keys_xor_of_one_axis .w64 hv ho hr (by simp) (by simp) (i := 1) rfl rfl rfl
      fun j hj => cellsOf_congr (hsame j hj)
  exact ⟨hsame, key, other, hkey, hother, hnear 2 (-1) hfirst hsecond (by decide) (by decide)⟩

end CellKeys
