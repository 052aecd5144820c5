import CellKeys.Hasher.Slots
import CellKeys.Key.Argument
import CellKeys.Proofs.Value.Hashers

namespace CellKeys

namespace Value

variable {P : Hasher → Prop}

theorem gives_tryMap {α : Type} {f : α → Except Fault Value} {Q : Value → Prop}
    (hf : ∀ a, Gives (f a) Q) (t : Tensor α) :
    Gives (t.tryMap f) fun s => ∀ v ∈ s.entries, Q v := by
  intro s hs
  unfold Tensor.tryMap at hs
  split at hs
  · next entries hentries =>
    cases hs
    exact Gives.mapM (fun a _ => hf a) entries hentries
  · cases hs

/-- An operator other than multiplication, which can repeat a sequence, gives values without
    hashers. -/
theorem gives_combinePlain {op : Operator} (hop : op ≠ .multiply) (a b : Value) :
    Gives (combinePlain op a b) (EachHasher P) := by
  unfold combinePlain
  split
  · exact Gives.last fun n => Gives.pure (eachHasher_ofNumber n)
  · split
    · exact absurd rfl hop
    · exact Gives.last fun text => Gives.pure trivial
    · exact Gives.error _ _

end Value

namespace Operand

open Value

variable {P : Hasher → Prop}

theorem eachHasher_ofValues {t : Tensor Value} (ht : ∀ v ∈ t.entries, v.EachHasher P) :
    (ofValues t).toValue.EachHasher P := by
  unfold ofValues
  split
  · next v hlength => exact ht v List.mem_cons_self
  · trivial

theorem gives_combineEntries {op : Operator} (hop : op ≠ .multiply) (a b : Entries) :
    Gives (combineEntries op a b) fun r => r.toValue.EachHasher P := by
  unfold combineEntries
  split
  · split
    · refine Gives.last fun s => Gives.last fun t => ?_
      split
      · exact Gives.pure (eachHasher_ofEntries _ _)
      · exact Gives.error _ _
    · exact Gives.error _ _
  · split
    · split
      · refine Gives.bind (gives_tryMap (Q := EachHasher P) (fun pair => ?_) _) fun t ht => ?_
        · exact gives_combinePlain hop pair.1 pair.2
        · exact Gives.pure (eachHasher_ofValues ht)
      · exact Gives.error _ _
    · exact Gives.error _ _

theorem gives_combineAsEntries {op : Operator} (hop : op ≠ .multiply) (a b : Value) :
    Gives (combineAsEntries op a b) fun r => r.toValue.EachHasher P := by
  unfold combineAsEntries
  split
  · exact Gives.last fun x => gives_combineEntries hop _ _
  · exact Gives.last fun x => Gives.last fun y => gives_combineEntries hop _ _

theorem gives_combine {op : Operator} (hop : op ≠ .multiply) (a b : Operand) :
    Gives (combine op a b) fun r => r.toValue.EachHasher P := by
  unfold combine
  split
  · split
    · unfold combineSized
      split
      · exact absurd rfl hop
      · exact absurd rfl hop
      · split
        · exact Gives.error _ _
        · exact gives_combineAsEntries hop _ _
      · split
        · exact Gives.error _ _
        · exact gives_combineAsEntries hop _ _
      · exact gives_combineAsEntries hop _ _
    · refine Gives.bind (gives_combinePlain hop _ _) fun v hv => Gives.pure hv
  · exact Gives.last fun x => Gives.last fun y => gives_combineEntries hop _ _

theorem gives_rotate (w : Width) (word amount : Operand) :
    Gives (rotate w word amount) fun r => r.toValue.EachHasher P := by
  unfold rotate
  refine Gives.last fun left => Gives.last fun rest => Gives.last fun right =>
    Gives.last fun both => ?_
  exact gives_combine (fun h => Operator.noConfusion h) _ _

end Operand

open Value

variable {P : Hasher → Prop}

theorem gives_rotateValue (w : Width) {word : Value} (hword : word.EachHasher P)
    (amount : Operand) :
    Gives (w.rotateValue word amount) (EachHasher P) := by
  unfold Width.rotateValue
  split
  · exact Gives.pure trivial
  · refine Gives.last fun left => Gives.last fun zero => ?_
    split
    · exact Gives.pure hword
    · exact Gives.bind (Operand.gives_rotate w _ left) fun r hr => Gives.pure hr

theorem gives_axisHashValue (w : Width) (value bits axis : Value) :
    Gives (axisHashValue w value bits axis) (EachHasher P) := by
  unfold axisHashValue
  refine Gives.last fun cell => Gives.last fun amount => ?_
  have hword : (int (w.cellHash cell)).EachHasher P := trivial
  exact gives_rotateValue w hword amount

theorem gives_quotientByZeroValue (value div : Value) :
    Gives (quotientByZeroValue value div) (EachHasher P) := by
  unfold quotientByZeroValue
  split
  · split
    · exact Gives.last fun n => Gives.pure (eachHasher_ofNumber n)
    · refine Gives.last fun x => ?_
      split
      · exact Gives.pure trivial
      · exact Gives.error _ _
  · refine Gives.last fun zero => ?_
    split
    · exact Gives.pure trivial
    · exact Gives.error _ _

theorem gives_quantize (value div : Value) : Gives (quantize value div) (EachHasher P) := by
  unfold quantize
  split
  · exact Gives.last fun n => Gives.pure (eachHasher_ofNumber n)
  · split
    · next quotient hquotient =>
      exact Gives.pure (Operand.gives_combine (fun h => Operator.noConfusion h) _ _ _ hquotient)
    · exact gives_quotientByZeroValue value div
    · exact Gives.error _ _

theorem gives_bitsFor (width axes : Value) : Gives (Width.bitsFor width axes) (EachHasher P) := by
  unfold Width.bitsFor
  refine Gives.last fun below => ?_
  split
  · exact Gives.error _ _
  · refine Gives.last fun bits => ?_
    exact Gives.bind (Operand.gives_combine (P := P) (fun h => Operator.noConfusion h) _ _)
      fun r hr => Gives.pure hr

theorem gives_axes (kind : HasherClass) (count : Except Fault Nat) {state : Value}
    (hstate : state.EachHasher P) : Gives (kind.axes count state) (EachHasher P) := by
  have hnumber : ∀ r, (ofReading r).EachHasher P := fun r => trivial
  unfold HasherClass.axes
  split
  · refine Gives.bind (gives_poseAxes hstate) fun items hitems => ?_
    exact Gives.pure (eachHasher_tuple.mpr hitems)
  · refine Gives.last fun rs => Gives.pure ?_
    rw [eachHasher_list, ← eachHasher_tuple]
    exact eachHasher_map hnumber rs
  · exact Gives.last fun rs => Gives.pure (eachHasher_map hnumber rs)

theorem gives_axesValue (kind : HasherClass) (count : Except Fault Nat) (states : Value) :
    Gives (kind.axesValue count states) (EachHasher P) := by
  unfold HasherClass.axesValue
  split
  · exact Gives.pure trivial
  · exact Gives.last fun t => Gives.pure trivial

/-- A function of an object that is no hasher does not answer. -/
theorem gives_otherFunction {α : Type} {Q : α → Prop} (name : String) (v arg : Value) :
    Gives (otherFunction name v) fun f => Gives (f arg) Q := by
  unfold otherFunction
  split
  · split
    · exact Gives.pure (Gives.error _ _)
    · exact Gives.pure (Gives.error _ _)
    · exact Gives.error _ _
  · exact Gives.error _ _

theorem gives_axesFunction (on : Value) {state : Value} (hstate : state.EachHasher P) :
    Gives on.axesFunction fun f => Gives (f state) (EachHasher P) := by
  unfold axesFunction
  split
  · exact Gives.pure (gives_axes _ _ hstate)
  · exact gives_otherFunction "axes" _ state

theorem gives_tableFunction (on states : Value) :
    Gives on.tableFunction fun f => Gives (f states) (EachHasher P) := by
  unfold tableFunction
  split
  · exact Gives.pure (gives_axesValue _ _ states)
  · exact gives_otherFunction "axes_array" _ states

end CellKeys
