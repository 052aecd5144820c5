import CellKeys.Key.Batch
import CellKeys.Key.State
import CellKeys.Proofs.Axis.Lane
import CellKeys.Proofs.Axis.Word
import CellKeys.Proofs.Value.Array

namespace CellKeys

open Value

section

variable (w : Width) {bits axis : Value} {b i : Int} (hb : bits.number? = some (.int b))
  (hi : axis.number? = some (.int i))

include hb hi

theorem combine_multiply_int : (Operand.value bits).combine .multiply (.value axis) =
    .ok (.value (.int (b * i))) := by
  rw [Operand.combine_numbers .multiply hb hi]
  rfl

/-- A coordinate with a cell, or without one, has the word of its axis. -/
theorem axisHashValue_eq {v : Value} {cell : Option Int} (hcell : v.cell = .ok cell) :
    axisHashValue w v bits axis = .ok (.int (w.axisWord cell (b * i))) := by
  simp only [axisHashValue, hcell, combine_multiply_int hb hi, bind, Except.bind]
  rfl

theorem laneHashes_eq {values : Value} {t : Tensor Binary64} (ht : values.toTensor = .ok t) :
    laneHashes w values bits axis = .ok (t.map (w.laneAxisWord (b * i))) := by
  simp only [laneHashes, ht, combine_multiply_int hb hi, bind, Except.bind]
  rfl

/-- For both word sizes and all integers, an array of binary64 coordinates of any shape has an array
    of words of the same shape, and each of its entries is the word that the coordinate there has by
    itself. -/
theorem lane_hashes_match_entries {t : Tensor Binary64} (haxes : t.shape.length ≤ axisLimit)
    (m : Mark) :
    ∃ words, laneHashes w (.array .float64 (t.map .float) m) bits axis = .ok words ∧
      words.shape = t.shape ∧
      List.Forall₂ (fun x word => word.toNat < 2 ^ w.bits ∧
        ∀ v : Value, v.IsBinary64 x → axisHashValue w v bits axis = .ok (.int word.toNat))
        t.entries words.entries := by
  refine ⟨_, laneHashes_eq w hb hi (toTensor_array haxes m), rfl, ?_⟩
  simp only [Tensor.map]
  rw [List.forall₂_map_right_iff, List.forall₂_same]
  intro x _
  have hword := w.toNat_laneAxisWord (b * i) x
  constructor
  · rw [w.axisWord_eq, Int.ofNat_inj] at hword
    rw [hword]
    exact BitVec.isLt _
  · intro v hv
    rw [axisHashValue_eq w hb hi hv.cell, ← hword]

end

/-- A table that holds a NaN and numbers on both sides of the range of machine integers, turned by a
    negative amount of more than one full turn. -/
theorem lane_hashes_match_entries_turned :
    let t : Tensor Binary64 :=
      ⟨[2, 1, 2], [.nan, .twoPow 63, (Binary64.twoPow 70).neg, .zero true], rfl⟩
    Value.number? (.int (-7)) = some (.int (-7)) ∧ Value.number? (.int 11) = some (.int 11) ∧
      t.shape.length ≤ axisLimit ∧
      ∃ words, laneHashes .w32 (.array .float64 (t.map .float) none) (.int (-7)) (.int 11) =
          .ok words ∧
        words.shape = [2, 1, 2] ∧
        List.Forall₂ (fun x word => word.toNat < 2 ^ 32 ∧ ∀ v : Value, v.IsBinary64 x →
          axisHashValue .w32 v (.int (-7)) (.int 11) = .ok (.int word.toNat)) t.entries
          words.entries := by
  intro t
  have haxes : t.shape.length ≤ axisLimit := by decide
  exact ⟨rfl, rfl, haxes, lane_hashes_match_entries .w32 (i := 11) rfl rfl haxes none⟩

end CellKeys
