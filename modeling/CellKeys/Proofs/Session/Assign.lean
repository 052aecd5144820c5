import CellKeys.Proofs.Session.Keep

namespace CellKeys

open Value

/-- A name that does not start with an underscore, as the names of slots do. -/
def IsPublicName (name : String) : Prop := name.toList.head? ≠ some '_'

instance (name : String) : Decidable (IsPublicName name) :=
  inferInstanceAs (Decidable (name.toList.head? ≠ some '_'))

namespace Value

/-- A way to give a part of an object a kept value, which hashers refuse and which brings no hashers
    into other objects. -/
structure Reassigns (change : Value → Value → Except Fault Value) : Prop where
  refused : ∀ v stored w, v.isHasher = true → change v stored ≠ .ok w
  changed : ∀ v stored, v.HoldsNone → stored.HoldsNone →
    Gives (change v stored) fun w => w.HoldsNone ∧ ∀ place, w ≠ .object place

/-- The names of the slots are the only attributes of a hasher that can be given a value. -/
theorem assignAttribute_of_isHasher {v : Value} (hv : v.isHasher = true) {name : String}
    (hname : IsPublicName name) (new : Value) : v.assignAttribute name new = .error .attribute := by
  cases v with
  | slots kind resolution size bits underlying m =>
    simp only [assignAttribute, assignSlot]
    split
    · exact absurd rfl hname
    · exact absurd rfl hname
    · exact absurd rfl hname
    · exact absurd rfl hname
    · rfl
  | _ => cases hv

theorem mem_assigned {name : String} {new : Value} {attributes : List (String × Bool)}
    {values : List Value} {v : Value} (hv : v ∈ (assigned name new attributes values).2) :
    v = new ∨ v ∈ values := by
  fun_induction assigned name new attributes values with
  | case1 callable names first values =>
    rcases List.mem_cons.mp hv with rfl | hrest
    · exact .inl rfl
    · exact .inr (List.mem_cons_of_mem _ hrest)
  | case2 n callable names first values hne names' values' heq ih =>
    rw [heq] at ih
    rcases List.mem_cons.mp hv with rfl | hrest
    · exact .inr List.mem_cons_self
    · exact (ih hrest).imp_right (List.mem_cons_of_mem _)
  | case3 => exact .inl (List.mem_singleton.mp hv)

theorem reassigns_attribute {name : String} (hname : IsPublicName name) :
    Reassigns fun v stored => v.assignAttribute name stored where
  refused := by
    intro v stored w hv
    rw [assignAttribute_of_isHasher hv hname]
    nofun
  changed := by
    intro v stored hv hstored
    cases v with
    | pose x y theta m =>
      obtain ⟨hx, hy, htheta⟩ := eachHasher_pose.mp hv
      simp only [assignAttribute]
      split
      · exact Gives.pure ⟨eachHasher_pose.mpr ⟨hstored, hy, htheta⟩, by simp⟩
      · exact Gives.pure ⟨eachHasher_pose.mpr ⟨hx, hstored, htheta⟩, by simp⟩
      · exact Gives.pure ⟨eachHasher_pose.mpr ⟨hx, hy, hstored⟩, by simp⟩
      · exact Gives.error _ _
    | slots => cases hv.isHasher
    | foreign typeName attributes values m =>
      refine Gives.pure ⟨eachHasher_foreign.mpr fun w hw => ?_, by simp⟩
      rcases mem_assigned hw with rfl | hold
      · exact hstored
      · exact eachHasher_foreign.mp hv w hold
    | _ => exact Gives.error _ _

theorem reassigns_item (index : Int) (new : Value) :
    Reassigns fun v stored => v.assignItem index new stored where
  refused := by
    intro v stored w hv
    cases v with
    | slots => nofun
    | _ => cases hv
  changed := by
    intro v stored hv hstored
    cases v with
    | list items m =>
      simp only [assignItem]
      split
      · refine Gives.pure ⟨eachHasher_list.mpr fun w hw => ?_, by simp⟩
        rcases List.mem_or_eq_of_mem_set hw with hold | rfl
        · exact eachHasher_list.mp hv w hold
        · exact hstored
      · exact Gives.error _ _
    | array kind t m =>
      simp only [assignItem]
      split
      · exact Gives.error _ _
      · split
        · split
          · split
            · refine Gives.last fun entries => ?_
              split
              · exact Gives.pure ⟨trivial, by simp⟩
              · exact Gives.error _ _
            · exact Gives.error _ _
          · exact Gives.error _ _
        · exact Gives.error _ _
    | dict => exact Gives.pure ⟨trivial, by simp⟩
    | _ => exact Gives.error _ _

end Value

namespace Store

variable {log : List BuildRecord} {s : Store}

theorem gives_assign (hs : s.IsRecorded log) (on : Value) {new : Value} (hnew : new.RecordedIn log)
    {change : Value → Value → Except Fault Value} (hchange : Reassigns change) :
    Gives (s.assign on new change) fun t => t.IsRecorded log ∧ s.Keeps t := by
  unfold assign
  refine Gives.last fun checked => ?_
  have hkept := isRecorded_keep hs hnew
  have hkeeps := (extends_keep s new).keeps
  split
  · exact Gives.pure ⟨hs, .refl s⟩
  · next place hplace =>
    dsimp only
    -- The object is looked up after the new value is kept, so that it may be a part of itself.
    split
    · next v hv =>
      rcases hkept place v hv with ⟨hnone, -⟩ | ⟨h, hh, -⟩
      · have hchanged := hchange.changed v _ hnone (isKept_keep s new).holdsNone
        refine Gives.bind hchanged fun w hw => Gives.pure ?_
        have hfree : (s.keep new).2.NoHasherAt place := by
          intro o ho
          cases hv.symm.trans ho
          exact hnone.isHasher
        exact ⟨isRecorded_replace hkept hfree hw.1 hw.2, hkeeps.trans (keeps_replace hfree w)⟩
      · obtain ⟨underlying, hobject⟩ := hh.object
        cases hv.symm.trans hobject
        exact Gives.bind (fun w hw => absurd hw (hchange.refused _ _ w rfl)) fun w hw => hw
    · exact Gives.pure ⟨hkept, hkeeps⟩

end Store

end CellKeys
