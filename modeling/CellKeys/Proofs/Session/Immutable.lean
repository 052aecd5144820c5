import CellKeys.Proofs.Hasher.Content
import CellKeys.Proofs.Hasher.Slots
import CellKeys.Proofs.Session.Run

namespace CellKeys

open Value

namespace Value

/-- What the attributes of a hasher of some class say: numbers as resolution, one for each of at
    least one axis, and a word that is split up evenly among the axes. -/
structure IsConfigured (on : Value) (kind : HasherClass) (rs : List Reading)
    (w : Width) : Prop where
  type : on.typeName = kind.name
  resolution : on.readAttribute "resolution" = .ok (.tuple (rs.map .ofReading))
  axes : 1 ≤ rs.length
  width : on.readAttribute "width" = .ok (.width w)
  bits : w.bits = 32 ∨ w.bits = 64
  dimensions : on.readAttribute "dimensions" = .ok (.int rs.length)
  bitsPerAxis : on.readAttribute "bits_per_axis" = .ok (.int (w.bits / rs.length : Nat))

theorem isConfigured_configured (h : Hasher) (underlying : Value) (m : Mark) :
    (configured h underlying m).IsConfigured h.kind h.resolution h.width where
  type := rfl
  resolution := rfl
  axes := h.dimensions_pos
  width := rfl
  bits := by cases h.width <;> decide
  dimensions := by
    change (do return Value.int (← (tuple h.divisors).length)) = _
    rw [h.length_divisors]
    rfl
  bitsPerAxis := rfl

theorem anyEndless_readings (rs : List Reading) : anyEndless (rs.map ofReading) = false := by
  induction rs with
  | nil => rfl
  | cons r rs ih => exact ih

theorem isEndless_configured (h : Hasher) (underlying : Value) (m : Mark) :
    (configured h underlying m).isEndless = false := by
  have hresolution : (tuple h.divisors).isEndless = false := anyEndless_readings h.resolution
  change ((tuple h.divisors).isEndless || _ || _) = false
  rw [hresolution]
  rfl

variable {h : Hasher} {underlying : Value} {m : Mark}

/-- No attribute of a hasher leads back to itself. -/
theorem gives_readAttribute_ends
    (hunderlying : h.kind = .pose → ∃ own, underlying = hasher h.delegate own) (name : String) :
    Gives ((configured h underlying m).readAttribute name) fun v => v.isEndless = false := by
  change Gives (readSlot _ _ _ _ _ name) _
  unfold readSlot
  split
  · exact Gives.pure (anyEndless_readings h.resolution)
  · exact Gives.pure (anyEndless_readings h.resolution)
  · exact Gives.pure rfl
  · exact Gives.pure rfl
  · exact Gives.last fun n => Gives.pure rfl
  · exact Gives.pure rfl
  · exact Gives.pure rfl
  · split
    · next hpose =>
      obtain ⟨own, rfl⟩ := hunderlying hpose
      exact Gives.pure (isEndless_configured h.delegate .none own)
    · exact Gives.error _ _
  · exact Gives.ite (Gives.pure rfl) (Gives.error _ _)

end Value

namespace Session

variable {past records : List BuildRecord} {s : Session} {op : Operation Expression}
  {asked : Operation Value}

/-- Whenever an operation comes down to this, the session reports this outcome. -/
def Reports (s : Session) (asked : Operation Value) (outcome : Except Fault Answer) : Prop :=
  ∀ label op records, s.Asks op asked records → (s.step label op).1.outcome = outcome

/-- What a session reports about a hasher with this configuration, whatever is asked. -/
structure Tells (s : Session) (on : Value) (h : Hasher) : Prop where
  configured : on.IsConfigured h.kind h.resolution h.width
  reading : ∀ name, s.Reports (.readAttribute on name) ((on.readAttribute name).map .value)
  text : s.Reports (.text on) (.ok (.value (.text h.text)))
  key : ∀ state, s.Reports (.key on state) ((h.key state).map fun key : Nat => .value (.int key))
  call : ∀ state, s.Reports (.call on state) ((h.key state).map fun key : Nat => .value (.int key))
  keys : ∀ states, s.Reports (.keys on states)
    ((h.keys states).map fun keys => .value (.ofKeys h.width keys))

/-- What an object is now, with all that it holds. -/
def objectAt (s : Session) (place : Nat) : Value := s.store.current (.object place)

/-- The hasher at a place, as a session shows it. -/
structure Shows (s : Session) (place : Nat) (h : Hasher) : Prop where
  /-- However an operation gets at the hasher, it is the object at the place. -/
  met : ∀ op asked records, op.IsPublic → s.Asks op asked records → ∀ on ∈ asked.operands,
    on.isHasher = true → on.mark = some place → on = s.objectAt place
  tells : s.Tells (s.objectAt place) h
  /-- A pose hasher has three axes, and it has its keys from a tuple hasher with the same resolution
      and word size. -/
  delegate : h.kind = .pose → h.resolution.length = 3 ∧
    ∃ own, (s.objectAt place).readAttribute "_underlying" = .ok (s.objectAt own) ∧
      s.Tells (s.objectAt own) h.delegate ∧
      (∀ state, h.key state = state.poseAxes >>= fun axes => h.delegate.key (.tuple axes)) ∧
      ∀ states, h.keys states =
        h.axesTable states >>= fun table => h.delegate.keys (.ofTensor table)

/-- No attribute of a hasher can be given a value, unless its name starts with an underscore, and
    trying it changes nothing. -/
def Refuses (s : Session) : Prop :=
  ∀ label op on name new records, on.isHasher = true → IsPublicName name →
    s.Asks op (.assignAttribute on name new) records →
    ∃ e, e.faultClass = .attributeError ∧ s.step label op = (⟨.error e, records⟩, s)

theorem refuses (s : Session) : s.Refuses := by
  intro label op on name new records hon hname hasks
  have hrefused := assignAttribute_of_isHasher hon hname
  have hafter : s.store.after (.assignAttribute on name new) = .error .attribute := by
    rw [Store.after, Store.assign, hrefused]
    rfl
  have hperform : (s.perform (.assignAttribute on name new)).run records =
      (.error .attribute, records) := by
    unfold perform
    rw [Recorded.run_bind_ok (m := Operation.answer _) rfl, hafter,
      Recorded.run_bind_error (m := Recorded.of _) rfl]
  exact ⟨.attribute, rfl, step_of_error label hasks hperform⟩

/-- The outcome of an operation that changes nothing and answers with a value that ends. -/
theorem outcome_eq {result : Except Fault Value}
    (hprepare : s.store.prepare asked = (asked, s.store))
    (hanswer : asked.answer = Operation.answer.valued result)
    (hafter : s.store.after asked = .ok s.store)
    (hends : Gives result fun v => v.isEndless = false) (label : Option String)
    (hasks : s.Asks op asked records) : (s.step label op).1.outcome = result.map .value := by
  have hperform : (s.perform asked).run records =
      (result.map fun v => (Answer.value v, s.store), records) := by
    unfold perform
    rw [hanswer, hafter]
    cases result with
    | error e => rfl
    | ok v =>
      rw [Recorded.run_bind_ok (m := Operation.answer.valued _) rfl,
        Recorded.run_bind_ok (m := Recorded.of _) rfl]
      dsimp only
      rw [hends v rfl]
      rfl
  have hprepared : s.prepared asked = s := by rw [prepared, hprepare]
  cases result with
  | error e =>
    rw [step_of_error label hasks (by rw [hprepared, hprepare]; exact hperform)]
    rfl
  | ok v =>
    rw [step_of_ok label hasks (by rw [hprepared, hprepare]; exact hperform)]
    rfl

theorem outcome_return {α : Type} {r : Except Fault α} {f : α → Value}
    (hprepare : s.store.prepare asked = (asked, s.store))
    (hanswer : asked.answer = Operation.answer.valued (do return f (← r)))
    (hafter : s.store.after asked = .ok s.store) (hends : ∀ a, (f a).isEndless = false)
    (label : Option String) (hasks : s.Asks op asked records) :
    (s.step label op).1.outcome = r.map fun a => .value (f a) := by
  have hvalue : Gives (do return f (← r)) fun v => v.isEndless = false :=
    Gives.last fun a => Gives.pure (hends a)
  rw [outcome_eq hprepare hanswer hafter hvalue label hasks]
  cases r <;> rfl

theorem tells_configured (s : Session) {h : Hasher} {underlying : Value} {m : Mark}
    (hunderlying : h.kind = .pose → ∃ own, underlying = hasher h.delegate own) :
    s.Tells (Value.configured h underlying m) h where
  configured := isConfigured_configured h underlying m
  reading := fun name label op records hasks =>
    outcome_eq rfl rfl rfl (gives_readAttribute_ends hunderlying name) label hasks
  text := by
    intro label op records hasks
    refine outcome_return (r := .ok h.text) rfl ?_ rfl (fun _ => rfl) label hasks
    rw [Operation.answer, written_configured]
  key := by
    intro state label op records hasks
    refine outcome_return (r := h.key state) rfl ?_ rfl (fun _ => rfl) label hasks
    rw [Operation.answer, keyFunction_configured hunderlying]
    rfl
  call := by
    intro state label op records hasks
    refine outcome_return (r := h.key state) rfl ?_ rfl (fun _ => rfl) label hasks
    have hcall : (Value.configured h underlying m).callFunction = .ok h.key :=
      keyFunction_configured hunderlying
    rw [Operation.answer, hcall]
    rfl
  keys := by
    intro states label op records hasks
    refine outcome_return (r := h.keys states) rfl ?_ rfl (fun _ => rfl) label hasks
    rw [Operation.answer, keysFunction_configured hunderlying]
    change Operation.answer.valued (h.sizedKeys states >>= _) = _
    rw [Hasher.sizedKeys]
    cases h.keys states <;> rfl

theorem shows_of_isRecorded (hs : s.IsRecorded past) {place : Nat} {h : Hasher}
    (hh : s.store.HasherAt place h) : s.Shows place h where
  met := by
    intro op asked records hop hasks on hon hhasher hmark
    exact (hasks.known hs hop on hon).2.hasher place hhasher hmark
  tells := by
    cases hh with
    | alone hkind hobject =>
      rw [objectAt, Store.current_alone hobject]
      exact s.tells_configured fun hpose => absurd hpose hkind
    | delegating own hkind hobject hown =>
      rw [objectAt, Store.current_delegating hobject hown]
      exact s.tells_configured fun _ => ⟨_, rfl⟩
  delegate := by
    intro hpose
    cases hh with
    | alone hkind hobject => exact absurd hpose hkind
    | delegating own hkind hobject hown =>
      have hdelegate : s.objectAt own = hasher h.delegate (some own) := Store.current_alone hown
      refine ⟨h.length_of_pose hpose, own, ?_, ?_, Hasher.key_of_pose hpose,
        Hasher.keys_of_pose hpose⟩
      · rw [objectAt, Store.current_delegating hobject hown, hdelegate]
        exact if_pos hpose
      · rw [hdelegate]
        exact s.tells_configured nofun

/-- The ways to ask for the key that a hasher gives a state. -/
def keyQuestions (on state : Value) : List (Operation Value) := [.key on state, .call on state]

theorem Tells.reports_key {on : Value} {h : Hasher} (htells : s.Tells on h) {state : Value}
    (hasked : asked ∈ keyQuestions on state) :
    s.Reports asked ((h.key state.unmarked).map fun key : Nat => .value (.int key)) := by
  rw [h.key_unmarked]
  simp only [keyQuestions, List.mem_cons, List.not_mem_nil, or_false] at hasked
  rcases hasked with rfl | rfl
  · exact htells.key state
  · exact htells.call state

/-- In every session that public operations lead to, whatever they are, every hasher is what its
    records say that was built: numbers as resolution, one for each of at least one axis, and one of
    the two word sizes, split up evenly among the axes; for poses three axes and a tuple hasher with
    the same configuration, which makes the keys. All this is the same after any further public
    operations. No attribute of a hasher can be given a value under a name without a leading
    underscore, and two states that hold the same have the same key at both moments. -/
theorem run_keeps_hashers {before after : List (Option String × Operation Expression)}
    (hpublic : ∀ entry ∈ before ++ after, entry.2.IsPublic) {place : Nat} {o : Value}
    (hobject : (empty.run before).2.store.objects[place]? = some o) (hhasher : o.isHasher = true) :
    let first := (empty.run before).2
    let later := (empty.run (before ++ after)).2
    ∃ h : Hasher, h.records ⊆ recordsOf (empty.run before).1 ∧
      later.objectAt place = first.objectAt place ∧ first.Shows place h ∧ later.Shows place h ∧
      first.Refuses ∧ later.Refuses ∧
      ∀ state state', state.unmarked = state'.unmarked →
        ∀ asked ∈ keyQuestions (first.objectAt place) state,
        ∀ asked' ∈ keyQuestions (later.objectAt place) state',
          ∃ outcome, first.Reports asked outcome ∧ later.Reports asked' outcome := by
  intro first later
  rw [List.forall_mem_append] at hpublic
  obtain ⟨hfirst, -⟩ := run_spec isRecorded_empty hpublic.1
  obtain ⟨hlater, hkeeps⟩ := run_spec hfirst hpublic.2
  rw [← run_append] at hlater hkeeps
  obtain ⟨h, hh, hrecords⟩ := hfirst.store.hasherAt hobject hhasher
  have hshows := shows_of_isRecorded hfirst hh
  have hshown := shows_of_isRecorded hlater (hkeeps.hasherAt hh)
  refine ⟨h, hrecords, hkeeps.current_object hh, hshows, hshown, refuses _, refuses _, ?_⟩
  intro state state' hsame asked hasked asked' hasked'
  refine ⟨_, hshows.tells.reports_key hasked, ?_⟩
  rw [hsame]
  exact hshown.tells.reports_key hasked'

/-- A list hasher whose list changes afterwards, and that is asked to change itself. -/
theorem run_keeps_hashers_of_list :
    let before : List (Option String × Operation Expression) :=
      [(some "sizes", .evaluate (.list [.value (.ofBinary64 (.ofInt 2)), .value (.int 3)])),
        (some "hasher", .evaluate (.hasher (.sequence .array) [.name "sizes"] none))]
    let after : List (Option String × Operation Expression) :=
      [(none, .assignItem (.name "sizes") 0 (.value (.int 5))),
        (none, .assignAttribute (.name "hasher") "width" (.value (.int 32))),
        (some "key", .key (.name "hasher") (.name "sizes"))]
    let later := (empty.run (before ++ after)).2
    (∀ entry ∈ before ++ after, entry.2.IsPublic) ∧
      ∃ o h, (empty.run before).2.store.objects[1]? = some o ∧ o.isHasher = true ∧
        h.record = ⟨.array, [.ofInt 2, .ofInt 3], .w64, 32⟩ ∧ later.Shows 1 h ∧ later.Refuses ∧
        ((empty.run (before ++ after)).1.map fun report => report.outcome.toOption.isSome) =
          [true, true, true, false, true] := by
  intro before after later
  have hpublic : ∀ entry ∈ before ++ after, entry.2.IsPublic := by
    simp only [before, after, List.cons_append, List.nil_append, List.forall_mem_cons]
    refine ⟨⟨by decide, nofun⟩, ⟨by decide, nofun⟩, ⟨by decide, nofun⟩, ⟨by decide, ?_⟩,
      ⟨by decide, nofun⟩, nofun⟩
    rintro _ ⟨⟩
    decide
  have hkept : ((empty.run before).2.store.objects[1]?).map isHasher = some true := by
    decide +kernel
  have hrecords : recordsOf (empty.run before).1 = [⟨.array, [.ofInt 2, .ofInt 3], .w64, 32⟩] := by
    decide +kernel
  obtain ⟨o, hobject, hhasher⟩ := Option.map_eq_some_iff.mp hkept
  obtain ⟨h, hrecorded, -, -, hshows, -, hrefuses, -⟩ := run_keeps_hashers hpublic hobject hhasher
  rw [hrecords] at hrecorded
  have hrecord : h.record = ⟨.array, [.ofInt 2, .ofInt 3], .w64, 32⟩ :=
    List.mem_singleton.mp (hrecorded h.record_mem_records)
  exact ⟨hpublic, o, h, hobject, hhasher, hrecord, hshows, hrefuses, by decide +kernel⟩

/-- The slots themselves are open: under the name of one a hasher is given another word size. -/
example :
    let ops : List (Option String × Operation Expression) :=
      [(some "hasher", .evaluate (.hasher (.sequence .array) [.list [.value (.int 3)]] none)),
        (none, .assignAttribute (.name "hasher") "_width" (.value (.width .w32))),
        (none, .readAttribute (.name "hasher") "width")]
    ((empty.run ops).1.map fun report => match report.outcome with
      | .ok (.value (.width .w32)) => true
      | _ => false) = [false, false, true] := by decide +kernel

end Session

end CellKeys
