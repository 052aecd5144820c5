import CellKeys.Number
import CellKeys.Proofs.Axis.Word
import CellKeys.Proofs.Binary64.Exact
import Mathlib.Data.Rat.Floor

namespace CellKeys

/-- The cell that a coordinate lies in: the floor of the exact value of its quotient by the cell
    size. An infinite quotient and a NaN have none. -/
def cellOf (x div : Binary64) : Option Int :=
  (Number.float (x.div div)).rational?.map fun q => ⌊q⌋

/-- The cells of a state, axis by axis. -/
def cellsOf (xs divs : List Binary64) : List (Option Int) := List.zipWith cellOf xs divs

/-- The exclusive or of words. -/
def xorAll {n : Nat} (words : List (BitVec n)) : BitVec n := words.foldr (· ^^^ ·) 0#n

/-- The exclusive or of the words of the axes from this index on. -/
def Width.cellFold (w : Width) (bits index : Nat) (cells : List (Option Int)) : BitVec w.bits :=
  xorAll (cells.mapIdx fun i cell => w.axisBits bits (index + i) cell)

/-- The key of a state whose axes lie in these cells: each axis has an equal number of whole bits.
    -/
def Width.cellKey (w : Width) (cells : List (Option Int)) : BitVec w.bits :=
  w.cellFold (w.bits / cells.length) 0 cells

/-- The floor of a value is the floor of the fraction that it stands for. -/
theorem Binary64.cell?_eq_floor (x : Binary64) :
    x.cell? = (Number.float x).rational?.map fun q => ⌊q⌋ := by
  cases x with
  | nan | infinity => rfl
  | finite s a h =>
    simp only [cell?, Number.rational?, Option.map_some, Rat.mkRat_eq_div]
    rw [Rat.floor_intCast_div_natCast]

theorem cellOf_eq (x div : Binary64) : cellOf x div = (x.div div).cell? :=
  ((x.div div).cell?_eq_floor).symm

/-- Both zeros lie in the same cell, or in none, whatever the cell size is. -/
theorem cellOf_zero (s t : Bool) (div : Binary64) :
    cellOf (.zero s) div = cellOf (.zero t) div := by
  have hcell : ∀ s, (Binary64.zero s).cell? = some 0 := by
    intro s
    cases s <;> exact congrArg some (Int.zero_ediv _)
  rw [cellOf_eq, cellOf_eq]
  cases div with
  | nan => rfl
  | infinity u => exact (hcell _).trans (hcell _).symm
  | finite u b hb =>
    by_cases hzero : b = 0
    · simp only [Binary64.zero, Binary64.div, if_pos hzero, if_true]
    · simp only [Binary64.zero, Binary64.div, if_neg hzero, Nat.zero_mul,
        Binary64.round_zero _ hzero]
      exact (hcell _).trans (hcell _).symm

/-- Coordinates of the same exact value lie in the same cell. -/
theorem cellOf_eq_of_units? {x y : Binary64} {u : Int} (hx : x.units? = some u)
    (hy : y.units? = some u) (div : Binary64) : cellOf x div = cellOf y div := by
  by_cases hzero : u = 0
  · subst hzero
    obtain ⟨s, rfl⟩ := Binary64.eq_zero_of_units? hx
    obtain ⟨t, rfl⟩ := Binary64.eq_zero_of_units? hy
    exact cellOf_zero s t div
  · rw [Binary64.eq_of_units? hx hy hzero]

theorem length_cellsOf {xs divs : List Binary64} (h : xs.length = divs.length) :
    (cellsOf xs divs).length = divs.length := by
  rw [cellsOf, List.length_zipWith, h, Nat.min_self]

theorem xorAll_cons {n : Nat} (word : BitVec n) (words : List (BitVec n)) :
    xorAll (word :: words) = word ^^^ xorAll words := rfl

/-- Two lists that differ in one word differ by the exclusive or of both words. -/
theorem xorAll_xor_set {n : Nat} (words : List (BitVec n)) {i : Nat} (h : i < words.length)
    (word : BitVec n) : xorAll words ^^^ xorAll (words.set i word) = words[i] ^^^ word := by
  induction words generalizing i with
  | nil => cases h
  | cons first rest ih =>
    cases i with
    | zero =>
      rw [List.set_cons_zero, xorAll_cons, xorAll_cons, BitVec.xor_comm word, BitVec.xor_assoc,
        ← BitVec.xor_assoc (xorAll rest), BitVec.xor_self, BitVec.zero_xor]
      rfl
    | succ i =>
      have hrest := ih (Nat.lt_of_succ_lt_succ h)
      rw [List.set_cons_succ, xorAll_cons, xorAll_cons, BitVec.xor_comm first, BitVec.xor_assoc,
        ← BitVec.xor_assoc first, BitVec.xor_self, BitVec.zero_xor]
      exact hrest

namespace Width

theorem cellFold_nil (w : Width) (bits index : Nat) : w.cellFold bits index [] = 0#w.bits := rfl

theorem cellFold_cons (w : Width) (bits index : Nat) (cell : Option Int)
    (cells : List (Option Int)) :
    w.cellFold bits index (cell :: cells) =
      w.axisBits bits index cell ^^^ w.cellFold bits (index + 1) cells := by
  simp only [cellFold, List.mapIdx_cons, xorAll_cons, Nat.add_zero]
  simp only [Nat.add_assoc, Nat.add_comm 1]

/-- States that differ in one cell have keys that differ by the words of both cells on that axis. -/
theorem cellKey_xor_set (w : Width) (cells : List (Option Int)) {i : Nat} (h : i < cells.length)
    (cell : Option Int) :
    w.cellKey cells ^^^ w.cellKey (cells.set i cell) =
      w.axisBits (w.bits / cells.length) i cells[i] ^^^
        w.axisBits (w.bits / cells.length) i cell := by
  unfold cellKey cellFold
  rw [List.length_set, List.mapIdx_set, xorAll_xor_set _ (by simpa using h)]
  simp

/-- Such states have the same key just where the residues of both cells agree. -/
theorem cellKey_set_inj (w : Width) (cells : List (Option Int)) {i : Nat} (h : i < cells.length)
    (cell : Option Int) :
    w.cellKey cells = w.cellKey (cells.set i cell) ↔ w.cellBits cells[i] = w.cellBits cell := by
  rw [← BitVec.xor_eq_zero_iff, cellKey_xor_set w cells h cell, BitVec.xor_eq_zero_iff,
    axisBits_inj]

end Width

theorem cellsOf_getElem? {xs divs : List Binary64} {i : Nat} {x div : Binary64}
    (hx : xs[i]? = some x) (hdiv : divs[i]? = some div) :
    (cellsOf xs divs)[i]? = some (cellOf x div) := by
  simp only [cellsOf, List.getElem?_zipWith, hx, hdiv]

/-- Coordinates and cell sizes can be replaced one by one by others that give the same cells. -/
theorem cellsOf_eq_of_forall₂ {xs ys divs sizes : List Binary64}
    (hxs : List.Forall₂ (fun x y => ∀ div, cellOf x div = cellOf y div) xs ys)
    (hdivs : List.Forall₂ (fun d e => ∀ x, cellOf x d = cellOf x e) divs sizes) :
    cellsOf xs divs = cellsOf ys sizes := by
  induction hxs generalizing divs sizes with
  | nil => rfl
  | cons hx _ ih =>
    cases hdivs with
    | nil => rfl
    | cons hdiv hdivs =>
      have hrest := ih hdivs
      simp only [cellsOf, List.zipWith_cons_cons] at hrest ⊢
      rw [hx, hdiv, hrest]

/-- Equal coordinates lie in equal cells. -/
theorem cellsOf_congr {xs ys divs : List Binary64} {j : Nat} (h : ys[j]? = xs[j]?) :
    (cellsOf ys divs)[j]? = (cellsOf xs divs)[j]? := by
  simp only [cellsOf, List.getElem?_zipWith, h]

/-- The cells of states that agree in all cells but one differ at most there. -/
theorem cellsOf_set {xs ys divs : List Binary64} {i : Nat} {x y div : Binary64}
    (hx : xs[i]? = some x) (hy : ys[i]? = some y) (hdiv : divs[i]? = some div)
    (hsame : ∀ j, j ≠ i → (cellsOf ys divs)[j]? = (cellsOf xs divs)[j]?) :
    cellsOf ys divs = (cellsOf xs divs).set i (cellOf y div) := by
  apply List.ext_getElem?
  intro j
  by_cases hj : j = i
  · subst hj
    obtain ⟨hlt, -⟩ := List.getElem?_eq_some_iff.mp (cellsOf_getElem? hx hdiv)
    rw [List.getElem?_set_self hlt, cellsOf_getElem? hy hdiv]
  · rw [List.getElem?_set_ne (Ne.symm hj)]
    exact hsame j hj

/-- A coordinate can be replaced by another one in its cell. -/
theorem cellsOf_set_same {xs divs : List Binary64} {i : Nat} {x z r : Binary64}
    (hx : xs[i]? = some x)
    (hdiv : divs[i]? = some r) (hcell : cellOf z r = cellOf x r) :
    cellsOf (xs.set i z) divs = cellsOf xs divs := by
  obtain ⟨hlt, -⟩ := List.getElem?_eq_some_iff.mp hx
  have hothers : ∀ j, j ≠ i → (cellsOf (xs.set i z) divs)[j]? = (cellsOf xs divs)[j]? :=
    fun j hj => cellsOf_congr (List.getElem?_set_ne (Ne.symm hj))
  obtain ⟨hcells, hsame⟩ := List.getElem?_eq_some_iff.mp (cellsOf_getElem? hx hdiv)
  rw [cellsOf_set hx (List.getElem?_set_self hlt) hdiv hothers, hcell, ← hsame,
    List.set_getElem_self]

end CellKeys
