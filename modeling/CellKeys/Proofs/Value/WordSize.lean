import CellKeys.Key.Argument
import Mathlib.Data.Rat.Cast.Order

namespace CellKeys

/-- Numbers are compared with integers by their exact values. -/
theorem Number.numEq_int_iff {x : Number} {n : Int} :
    x.numEq (.int n) = true ↔ x.rational? = some (n : ℚ) := by
  have hn : (Number.int n).rational? = some (n : ℚ) := rfl
  unfold numEq
  rw [hn]
  cases hx : x.rational? with
  | some q => simp
  | none => exact ⟨nofun, nofun⟩

/-- The number that a value is, or that it holds as its only entry. -/
def Value.one? : Value → Option Number
  | array _ t _ => t.single?.map Element.toNumber
  | scalar s _ => some s.element.toNumber
  | v => v.number?

namespace Width

/-- A value that equals a word size as a number. -/
def Equals (w : Width) (v : Value) : Prop := ∃ n, v.one? = some n ∧ n.rational? = some (w.bits : ℚ)

theorem ofValue_eq (v : Value) : ofValue v =
    match v.one?.bind fun x => all.find? fun w => x.numEq (.int w.bits) with
    | some w => .ok w
    | none => .error (.wordWidth v.shown) := by
  cases v <;> rfl

theorem mem_all (w : Width) : w ∈ all := by cases w <;> decide

theorem bits_inj {v w : Width} : v.bits = w.bits ↔ v = w := by
  cases v <;> cases w <;> decide

/-- A number equals at most one word size. -/
theorem find?_eq_some_iff {x : Number} {w : Width} :
    (all.find? fun v => x.numEq (.int v.bits)) = some w ↔ x.rational? = some (w.bits : ℚ) := by
  have hcompare : ∀ v : Width, x.numEq (.int v.bits) = true ↔ x.rational? = some (v.bits : ℚ) :=
    fun v => by exact_mod_cast Number.numEq_int_iff (n := v.bits)
  have hfound : ∀ v : Width, (all.find? fun v => x.numEq (.int v.bits)) = some v →
      x.rational? = some (v.bits : ℚ) :=
    fun v hv => (hcompare v).mp (List.find?_some (p := fun v : Width => x.numEq (.int v.bits)) hv)
  constructor
  · exact hfound w
  · intro h
    have hsome : (all.find? fun v => x.numEq (.int v.bits)).isSome = true := by
      rw [List.find?_isSome]
      exact ⟨w, w.mem_all, (hcompare w).mpr h⟩
    obtain ⟨v, hv⟩ := Option.isSome_iff_exists.mp hsome
    have hsize := hfound v hv
    rw [h, Option.some.injEq, Nat.cast_inj, bits_inj] at hsize
    rw [hv, hsize]

/-- A word size is read from the values that equal it. -/
theorem ofValue_eq_ok_iff {v : Value} {w : Width} : ofValue v = .ok w ↔ w.Equals v := by
  have hsome : w.Equals v ↔
      (v.one?.bind fun x => all.find? fun w => x.numEq (.int w.bits)) = some w := by
    rw [Option.bind_eq_some_iff]
    exact exists_congr fun n => and_congr_right fun _ => find?_eq_some_iff.symm
  rw [hsome, ofValue_eq]
  split
  · next u hu => rw [hu, Except.ok.injEq, Option.some.injEq]
  · next hnone =>
    rw [hnone]
    exact ⟨nofun, nofun⟩

theorem Equals.unique {v : Value} {w u : Width} (hw : w.Equals v) (hu : u.Equals v) : w = u :=
  Except.ok.inj ((ofValue_eq_ok_iff.mpr hw).symm.trans (ofValue_eq_ok_iff.mpr hu))

/-- Every other value is refused. -/
theorem ofValue_eq_error {v : Value} (h : ∀ w : Width, ¬ w.Equals v) :
    ofValue v = .error (.wordWidth v.shown) := by
  cases hw : ofValue v with
  | ok w => exact absurd (ofValue_eq_ok_iff.mp hw) (h w)
  | error e =>
    rw [ofValue_eq] at hw
    split at hw
    · cases hw
    · exact hw.symm

end Width

end CellKeys
