import CellKeys.Proofs.Session.Current

namespace CellKeys

open Value

namespace Recorded

variable {α β : Type} {log more : List BuildRecord}

theorem run_bind_ok {m : Recorded α} {f : α → Recorded β} {a : α} (h : m.run log = (.ok a, more)) :
    (m >>= f).run log = (f a).run more := by
  change StateT.bind m (ExceptT.bindCont f) log = f a more
  have hm : m log = (.ok a, more) := h
  rw [StateT.bind, hm]
  rfl

theorem run_bind_error {m : Recorded α} {f : α → Recorded β} {e : Fault}
    (h : m.run log = (.error e, more)) : (m >>= f).run log = (.error e, more) := by
  change StateT.bind m (ExceptT.bindCont f) log = (.error e, more)
  have hm : m log = (.error e, more) := h
  rw [StateT.bind, hm]
  rfl

/-- Every result of a computation has a property, whatever is in the log. -/
def Ensures (m : Recorded α) (Q : α → Prop) : Prop := ∀ log a, (m.run log).1 = .ok a → Q a

theorem Ensures.pure {a : α} {Q : α → Prop} (h : Q a) : Ensures (Pure.pure a) Q := by
  intro log b hb
  cases hb
  exact h

theorem Ensures.bind {m : Recorded α} {f : α → Recorded β} {Q : β → Prop}
    (h : ∀ a, Ensures (f a) Q) : Ensures (m >>= f) Q := by
  intro log b hb
  rcases hrun : m.run log with ⟨_ | a, more⟩
  · rw [run_bind_error hrun] at hb
    cases hb
  · rw [run_bind_ok hrun] at hb
    exact h a more b hb

/-- A property of values that depends on a log and is kept when the log grows. -/
structure Property where
  holds : List BuildRecord → Value → Prop
  grows : ∀ {log more v}, holds log v → log ⊆ more → holds more v

/-- A computation only adds to the log, and if the known values have a property before it, the
    values that its result consists of have the property afterwards. -/
def Yields (Q : Property) (known : List Value) (m : Recorded α) (parts : α → List Value) : Prop :=
  ∀ log, (∀ v ∈ known, Q.holds log v) →
    log ⊆ (m.run log).2 ∧ ∀ a, (m.run log).1 = .ok a → ∀ v ∈ parts a, Q.holds (m.run log).2 v

namespace Yields

variable {Q : Property} {known : List Value} {parts : α → List Value} {rest : β → List Value}

theorem pure {a : α} (h : ∀ log, (∀ v ∈ known, Q.holds log v) → ∀ v ∈ parts a, Q.holds log v) :
    Yields Q known (Pure.pure a) parts := by
  intro log hknown
  refine ⟨List.Subset.refl _, ?_⟩
  intro b hb
  cases hb
  exact h log hknown

theorem known_parts {a : α} (h : parts a ⊆ known) : Yields Q known (Pure.pure a) parts :=
  pure fun _ hknown v hv => hknown v (h hv)

theorem of {r : Except Fault α} (h : ∀ log, (∀ v ∈ known, Q.holds log v) →
    Gives r fun a => ∀ v ∈ parts a, Q.holds log v) : Yields Q known (Recorded.of r) parts := by
  intro log hknown
  exact ⟨List.Subset.refl _, h log hknown⟩

theorem throw (e : Fault) : Yields Q known (MonadExcept.throw e) parts := by
  intro log hknown
  exact ⟨List.Subset.refl _, nofun⟩

theorem bind {m : Recorded α} {f : α → Recorded β} (hm : Yields Q known m parts)
    (hf : ∀ a, Yields Q (known ++ parts a) (f a) rest) : Yields Q known (m >>= f) rest := by
  intro log hknown
  obtain ⟨hsub, hparts⟩ := hm log hknown
  rcases hrun : m.run log with ⟨_ | a, more⟩
  · rw [run_bind_error hrun]
    rw [hrun] at hsub
    exact ⟨hsub, nofun⟩
  · rw [hrun] at hsub hparts
    have hall : ∀ v ∈ known ++ parts a, Q.holds more v := by
      rw [List.forall_mem_append]
      exact ⟨fun v hv => Q.grows (hknown v hv) hsub, hparts a rfl⟩
    obtain ⟨hmore, hrest⟩ := hf a more hall
    rw [run_bind_ok hrun]
    exact ⟨List.Subset.trans hsub hmore, hrest⟩

theorem of_bind {r : Except Fault α} {f : α → Recorded β} (hf : ∀ a, Yields Q known (f a) rest) :
    Yields Q known (Recorded.of r >>= f) rest := by
  have hr : Yields Q known (Recorded.of r) fun _ => [] := of fun _ _ _ _ => nofun
  exact bind hr fun a => by rw [List.append_nil]; exact hf a

theorem weaken {others : List Value} {m : Recorded α} (hm : Yields Q known m parts)
    (h : known ⊆ others) : Yields Q others m parts := by
  intro log hothers
  exact hm log fun v hv => hothers v (h hv)

theorem mapM_option {f : α → Recorded Value} {o : Option α}
    (hf : ∀ a ∈ o.toList, Yields Q known (f a) ([·])) :
    Yields Q known (o.mapM f) Option.toList := by
  cases o with
  | none => exact known_parts (List.nil_subset _)
  | some a =>
    exact bind (hf a List.mem_cons_self) fun v => known_parts (List.subset_append_right _ _)

theorem hasher (hQ : ∀ log h, h.RecordedIn log → Q.holds log (.hasher h .none))
    (built : Except Fault Hasher) :
    Yields Q known (Recorded.hasher built) fun h => [.hasher h .none] := by
  intro log hknown
  cases built with
  | error e => exact ⟨List.Subset.refl _, nofun⟩
  | ok h =>
    refine ⟨List.subset_append_left _ _, ?_⟩
    intro g hg v hv
    cases hg
    rw [List.mem_singleton.mp hv]
    exact hQ _ h (List.subset_append_right _ _)

end Yields

/-- All hashers that a value holds left their records before or in the log. -/
def recordedAfter (past : List BuildRecord) : Property where
  holds := fun log v => v.RecordedIn (past ++ log)
  grows := by
    intro log more v hv hlog
    exact hv.mono (List.append_subset.mpr ⟨List.subset_append_left _ _,
      List.Subset.trans hlog (List.subset_append_right _ _)⟩)

/-- In addition a kept array or hasher is what lies at its place. -/
def knownAfter (past : List BuildRecord) (s : Store) : Property where
  holds := fun log v => v.RecordedIn (past ++ log) ∧ v.Matches s
  grows := fun hv hlog => ⟨(recordedAfter past).grows hv.1 hlog, hv.2⟩

end Recorded

end CellKeys
