import CellKeys.Hasher.Slots
import CellKeys.Proofs.Hasher.Sequence
import CellKeys.Proofs.Key.Band
import CellKeys.Value.Printer

namespace CellKeys

open Value

namespace Hasher

theorem length_divisors (h : Hasher) : (tuple h.divisors).length = .ok h.dimensions := by
  rw [length, divisors, List.length_map, dimensions]

theorem keyOfState_divisors (h : Hasher) {axes : Value} {items : List Value}
    (haxes : axes.IsSequence items) :
    keyOfState h.width axes (.tuple h.divisors) = stateKey h.width items h.divisors :=
  keyOfState_of_sequences h.width haxes ⟨rfl, rfl⟩

/-- A hasher of sequences folds the words of the axes that it finds. -/
theorem key_of_ne_pose {h : Hasher} (hkind : h.kind ≠ .pose) (state : Value) :
    h.key state = h.axes state >>= fun axes => keyOfState h.width axes (.tuple h.divisors) := by
  cases hclass : h.kind with
  | pose => exact absurd hclass hkind
  | plain =>
    simp only [key, sequenceKey, readings, axes, HasherClass.axes, HasherClass.readings, hclass]
    rfl
  | array =>
    simp only [key, sequenceKey, readings, axes, HasherClass.axes, hclass]
    cases HasherClass.array.readings (.ok h.dimensions) state with
    | error e => rfl
    | ok rs =>
      have haxes : (list (rs.map ofReading) .none).IsSequence (rs.map ofReading) := ⟨rfl, rfl⟩
      exact (h.keyOfState_divisors haxes).symm
  | tuple =>
    simp only [key, sequenceKey, readings, axes, HasherClass.axes, hclass]
    cases HasherClass.tuple.readings (.ok h.dimensions) state with
    | error e => rfl
    | ok rs =>
      have haxes : (tuple (rs.map ofReading)).IsSequence (rs.map ofReading) := ⟨rfl, rfl⟩
      exact (h.keyOfState_divisors haxes).symm

theorem keys_of_ne_pose {h : Hasher} (hkind : h.kind ≠ .pose) (states : Value) :
    h.keys states = h.axesTable states >>= h.tableKeys := by
  cases hclass : h.kind with
  | pose => exact absurd hclass hkind
  | _ => simp only [keys, hclass]

/-- A pose hasher asks the hasher that it delegates to. -/
theorem key_of_pose {h : Hasher} (hkind : h.kind = .pose) (state : Value) :
    h.key state = state.poseAxes >>= fun axes => h.delegate.key (.tuple axes) := by
  simp only [key, hkind]
  rfl

theorem keys_of_pose {h : Hasher} (hkind : h.kind = .pose) (states : Value) :
    h.keys states = h.axesTable states >>= fun table => h.delegate.keys (.ofTensor table) := by
  simp only [keys, hkind]
  refine congrArg (h.axesTable states >>= ·) (funext fun table => ?_)
  change h.delegate.tableKeys table =
    h.delegate.tableKeys ((table.map Element.float).map Element.value)
  rw [map_value_float]

/-- The keys of many states with the size of their words. -/
def sizedKeys (h : Hasher) (states : Value) : Except Fault (Width × Tensor UInt64) :=
  (h.keys states).map fun keys => (h.width, keys)

end Hasher

namespace Value

variable {h : Hasher} {underlying : Value} {m : Mark}

theorem keyFunction_of_ne_pose (hkind : h.kind ≠ .pose) :
    (configured h underlying m).keyFunction = .ok h.key := by
  have hkey : h.key = fun state => h.kind.axes (tuple h.divisors).length state >>= fun axes =>
      Width.ofValue (.width h.width) >>= fun w => keyOfState w axes (.tuple h.divisors) := by
    funext state
    rw [Hasher.key_of_ne_pose hkind, Width.ofValue_width, h.length_divisors]
    rfl
  rw [hkey]
  cases hclass : h.kind with
  | pose => exact absurd hclass hkind
  | _ =>
    rw [configured, hclass]
    rfl

/-- The key that a hasher gives is the one of its configuration, if what it delegates to is
    configured in the same way. -/
theorem keyFunction_configured
    (hunderlying : h.kind = .pose → ∃ own, underlying = hasher h.delegate own) :
    (configured h underlying m).keyFunction = .ok h.key := by
  by_cases hkind : h.kind = .pose
  · obtain ⟨own, rfl⟩ := hunderlying hkind
    have hown : (hasher h.delegate own).keyFunction = .ok h.delegate.key :=
      keyFunction_of_ne_pose (by nofun)
    have hkey : h.key = fun state => (hasher h.delegate own).keyFunction >>= fun key =>
        state.poseAxes >>= fun axes => key (.tuple axes) := by
      funext state
      rw [hown, Hasher.key_of_pose hkind]
      rfl
    rw [hkey, configured, hkind, keyFunction]
  · exact keyFunction_of_ne_pose hkind

theorem keysFunction_of_ne_pose (hkind : h.kind ≠ .pose) :
    (configured h underlying m).keysFunction = .ok h.sizedKeys := by
  have hkeys : h.sizedKeys = fun states =>
      h.kind.axesTable (tuple h.divisors).length states >>= fun table =>
        Width.ofValue (.width h.width) >>= fun w => (tuple h.divisors).elements >>= fun divs =>
          batchKeys w table divs >>= fun keys => pure (w, keys) := by
    funext states
    rw [Hasher.sizedKeys, Hasher.keys_of_ne_pose hkind, Width.ofValue_width, h.length_divisors]
    change Except.map _ (h.axesTable states >>= h.tableKeys) = h.axesTable states >>= _
    cases h.axesTable states with
    | error e => rfl
    | ok table =>
      change Except.map _ (h.tableKeys table) = h.tableKeys table >>= _
      cases h.tableKeys table <;> rfl
  rw [hkeys]
  cases hclass : h.kind with
  | pose => exact absurd hclass hkind
  | _ =>
    rw [configured, hclass]
    rfl

theorem keysFunction_configured
    (hunderlying : h.kind = .pose → ∃ own, underlying = hasher h.delegate own) :
    (configured h underlying m).keysFunction = .ok h.sizedKeys := by
  by_cases hkind : h.kind = .pose
  · obtain ⟨own, rfl⟩ := hunderlying hkind
    have hown : (hasher h.delegate own).keysFunction = .ok h.delegate.sizedKeys :=
      keysFunction_of_ne_pose (by nofun)
    have hkeys : h.sizedKeys = fun states => (hasher h.delegate own).keysFunction >>= fun keys =>
        HasherClass.axesTable .pose (tuple h.divisors).length states >>= fun table =>
          keys (.ofTensor table) := by
      funext states
      rw [hown, Hasher.sizedKeys, Hasher.keys_of_pose hkind, h.length_divisors]
      rw [Hasher.axesTable, hkind]
      change _ = HasherClass.axesTable .pose (.ok h.dimensions) states >>= _
      cases HasherClass.axesTable .pose (.ok h.dimensions) states <;> rfl
    rw [hkeys, configured, hkind, keysFunction]
    rfl
  · exact keysFunction_of_ne_pose hkind

theorem shownAllWithin_readings (outer : List Nat) (rs : List Reading) :
    shownAllWithin outer (rs.map ofReading) = (rs.map Reading.value).map Binary64.text := by
  induction rs with
  | nil => rfl
  | cons r rs ih =>
    rw [List.map_cons, shownAllWithin, ih]
    rfl

theorem unshownAll?_readings (rs : List Reading) : unshownAll? (rs.map ofReading) = .none := by
  induction rs with
  | nil => rfl
  | cons r rs ih =>
    rw [List.map_cons, unshownAll?, ih]
    rfl

/-- A hasher is written with what lies in its slots. -/
theorem written_configured (h : Hasher) (underlying : Value) (m : Mark) :
    (configured h underlying m).written = .ok h.text := by
  have hunshown : (configured h underlying m).unshown? = .none := by
    rw [configured, unshown?, unshown?, unshownAll?_readings]
    rfl
  have hshown : (configured h underlying m).shown = h.text := by
    rw [configured, shown, shownWithin, shownWithin, shownAllWithin_readings]
    rfl
  rw [written, hunshown, hshown]

end Value

end CellKeys
