import CellKeys.Proofs.Session.Assign
import CellKeys.Proofs.Session.Operation

namespace CellKeys

open Value

namespace Store

variable {log : List BuildRecord} {s : Store}

theorem gives_after (hs : s.IsRecorded log) {op : Operation Value}
    (hop : ∀ v ∈ op.operands, v.RecordedIn log)
    (hname : ∀ name, op.assignedName? = some name → IsPublicName name) :
    Gives (s.after op) fun t => t.IsRecorded log ∧ s.Keeps t := by
  cases op with
  | assignAttribute on name new =>
    have hnew := hop new (List.mem_cons_of_mem _ List.mem_cons_self)
    exact gives_assign hs on hnew (reassigns_attribute (hname name rfl))
  | assignItem on index new =>
    have hnew := hop new (List.mem_cons_of_mem _ List.mem_cons_self)
    exact gives_assign hs on hnew (reassigns_item index new)
  | _ => exact Gives.pure ⟨hs, .refl s⟩

end Store

namespace Session

/-- In a session after these records all hashers are recorded and at places of their own. -/
structure IsRecorded (log : List BuildRecord) (s : Session) : Prop where
  store : s.store.IsRecorded log
  names : ∀ name v, s.names.lookup name = some v → v.IsKept

theorem isRecorded_empty : empty.IsRecorded [] where
  store := nofun
  names := nofun

/-- The operands of an operation have these values, and these records are left on the way. -/
def Asks (s : Session) (op : Operation Expression) (asked : Operation Value)
    (records : List BuildRecord) : Prop :=
  (op.traverse (Expression.eval s.lookup)).run [] = (.ok asked, records)

variable {past records : List BuildRecord} {s : Session} {op : Operation Expression}
  {asked : Operation Value}

theorem IsRecorded.mono {more : List BuildRecord} (hs : s.IsRecorded past) (hlog : past ⊆ more) :
    s.IsRecorded more where
  store := hs.store.mono hlog
  names := hs.names

theorem IsRecorded.lookup (hs : s.IsRecorded past) {name : String} {v : Value}
    (hv : s.lookup name = some v) : v.RecordedIn past ∧ v.Matches s.store := by
  obtain ⟨kept, hkept, rfl⟩ := Option.map_eq_some_iff.mp hv
  have hplaces := hs.names name kept hkept
  exact ⟨Store.recordedIn_current hs.store hplaces, Store.matches_current hs.store hplaces⟩

theorem Asks.known (hs : s.IsRecorded past) (hop : op.IsPublic) (h : s.Asks op asked records) :
    ∀ v ∈ asked.operands, v.RecordedIn (past ++ records) ∧ v.Matches s.store := by
  have heval : ∀ e ∈ op.operands, Recorded.Yields (Recorded.knownAfter past s.store) []
      (e.eval s.lookup) ([·]) := fun e he =>
    Expression.yields_eval (fun _ _ hv => hs.lookup hv) (hop.literals e he)
  obtain ⟨-, hvalues⟩ := Operation.yields_traverse heval [] (List.forall_mem_nil _)
  rw [h] at hvalues
  exact hvalues asked rfl

theorem Asks.assignedName? (h : s.Asks op asked records) : asked.assignedName? = op.assignedName? :=
  Operation.ensures_traverse _ op [] asked (congrArg Prod.fst h)

theorem yields_perform (s : Session) (op : Operation Value) :
    Recorded.Yields (Recorded.recordedAfter past) op.operands (s.perform op)
      fun r => r.1.values := by
  refine .bind (Operation.yields_answer op) fun answer => .of_bind fun store => ?_
  have hanswer : answer.values ⊆ op.operands ++ answer.values := List.subset_append_right _ _
  cases answer with
  | value v =>
    dsimp only
    split
    · have hends : Recorded.Yields (Recorded.recordedAfter past) (op.operands ++ [v])
          (throw Fault.endless : Recorded Unit) fun _ => [] := .throw _
      exact .bind hends fun _ =>
        .known_parts (List.Subset.trans hanswer (List.subset_append_left _ _))
    · exact .known_parts hanswer
  | _ => exact .known_parts hanswer

theorem after_of_perform {op : Operation Value} {answer : Answer} {store : Store}
    {more : List BuildRecord} (h : (s.perform op).run records = (.ok (answer, store), more)) :
    s.store.after op = .ok store := by
  unfold perform at h
  rcases hanswer : op.answer.run records with ⟨_ | a, log⟩
  · rw [Recorded.run_bind_error hanswer] at h
    cases h
  · rw [Recorded.run_bind_ok hanswer] at h
    cases hstore : s.store.after op with
    | error e =>
      rw [hstore, Recorded.run_bind_error (m := Recorded.of _) rfl] at h
      cases h
    | ok t =>
      rw [hstore, Recorded.run_bind_ok (m := Recorded.of _) rfl] at h
      cases a with
      | value v =>
        dsimp only at h
        split at h
        · cases h
        · cases h
          rfl
      | _ =>
        cases h
        rfl

theorem perform_spec {op : Operation Value} (hs : s.IsRecorded (past ++ records))
    (hop : ∀ v ∈ op.operands, v.RecordedIn (past ++ records))
    (hname : ∀ name, op.assignedName? = some name → IsPublicName name) :
    records ⊆ ((s.perform op).run records).2 ∧
      ∀ answer store more, (s.perform op).run records = (.ok (answer, store), more) →
        ({ s with store } : Session).IsRecorded (past ++ more) ∧ s.store.Keeps store ∧
          ∀ v ∈ answer.values, v.RecordedIn (past ++ more) := by
  obtain ⟨hsub, hvalues⟩ := yields_perform s op records hop
  refine ⟨hsub, ?_⟩
  intro answer store more h
  rw [h] at hsub hvalues
  obtain ⟨hstore, hkeeps⟩ := Store.gives_after hs.store hop hname store (after_of_perform h)
  have hgrown : past ++ records ⊆ past ++ more := List.append_subset.mpr
    ⟨List.subset_append_left _ _, List.Subset.trans hsub (List.subset_append_right _ _)⟩
  exact ⟨⟨hstore.mono hgrown, hs.names⟩, hkeeps, hvalues _ rfl⟩

theorem bind_spec (hs : s.IsRecorded past) (name : String) {answer : Answer}
    (hanswer : ∀ v ∈ answer.values, v.RecordedIn past) :
    (s.bind name answer).IsRecorded past ∧ s.store.Keeps (s.bind name answer).store := by
  have hnames : ∀ kept : Value, kept.IsKept → ∀ other v,
      ((name, kept) :: s.names).lookup other = some v → v.IsKept := by
    intro kept hkept other v hv
    rw [List.lookup_cons] at hv
    split at hv
    · cases hv
      exact hkept
    · exact hs.names other v hv
  cases answer with
  | value v =>
    have hv := hanswer v List.mem_cons_self
    refine ⟨⟨Store.isRecorded_keep hs.store hv, ?_⟩, (Store.extends_keep s.store v).keeps⟩
    exact hnames _ (Store.isKept_keep s.store v)
  | _ => exact ⟨⟨hs.store, hnames .none ⟨trivial, nofun⟩⟩, .refl _⟩

/-- The session in which an operation over values is performed. -/
def prepared (s : Session) (asked : Operation Value) : Session :=
  { s with store := (s.store.prepare asked).2 }

theorem step_of_asks (label : Option String) (h : s.Asks op asked records) :
    s.step label op =
      match ((s.prepared asked).perform (s.store.prepare asked).1).run records with
      | (.ok (answer, store), records) =>
        (⟨.ok answer, records⟩,
          (label.map (({ s with store } : Session).bind · answer)).getD { s with store })
      | (.error e, records) => (⟨.error e, records⟩, s.prepared asked) := by
  unfold step
  rw [h]
  rfl

theorem step_of_error (label : Option String) (h : s.Asks op asked records) {e : Fault}
    {more : List BuildRecord}
    (hrun : ((s.prepared asked).perform (s.store.prepare asked).1).run records = (.error e, more)) :
    s.step label op = (⟨.error e, more⟩, s.prepared asked) := by
  rw [step_of_asks label h, hrun]

theorem step_of_ok (label : Option String) (h : s.Asks op asked records) {answer : Answer}
    {store : Store} {more : List BuildRecord}
    (hrun : ((s.prepared asked).perform (s.store.prepare asked).1).run records =
      (.ok (answer, store), more)) :
    s.step label op = (⟨.ok answer, more⟩,
      (label.map (({ s with store } : Session).bind · answer)).getD { s with store }) := by
  rw [step_of_asks label h, hrun]

/-- A step that is public keeps all hashers at their places and leaves none without records. -/
theorem step_spec (hs : s.IsRecorded past) (hop : op.IsPublic) (label : Option String) :
    (s.step label op).2.IsRecorded (past ++ (s.step label op).1.records) ∧
      s.store.Keeps (s.step label op).2.store := by
  rcases hasks : (op.traverse (Expression.eval s.lookup)).run [] with ⟨e | asked, records⟩
  · have hfailed : s.step label op = (⟨.error e, records⟩, s) := by
      unfold step
      rw [hasks]
    rw [hfailed]
    exact ⟨hs.mono (List.subset_append_left _ _), .refl _⟩
  · have hknown := Asks.known hs hop hasks
    have hgrown := hs.mono (List.subset_append_left past records)
    obtain ⟨hoperands, hprepared, hkept⟩ := Store.prepare_spec hgrown.store hknown
    have hsession : (s.prepared asked).IsRecorded (past ++ records) := ⟨hprepared, hs.names⟩
    have hname : ∀ name, (s.store.prepare asked).1.assignedName? = some name →
        IsPublicName name := by
      rw [Store.assignedName?_prepare, Asks.assignedName? hasks]
      exact hop.name
    obtain ⟨hsub, hperform⟩ := perform_spec hsession hoperands hname
    rcases hrun : ((s.prepared asked).perform (s.store.prepare asked).1).run records with
      ⟨e | ⟨answer, store⟩, more⟩
    · rw [step_of_error label hasks hrun]
      rw [hrun] at hsub
      refine ⟨hsession.mono (List.append_subset.mpr ?_), hkept⟩
      exact ⟨List.subset_append_left _ _, List.Subset.trans hsub (List.subset_append_right _ _)⟩
    · obtain ⟨hafter, hkeeps, hanswer⟩ := hperform answer store more hrun
      rw [step_of_ok label hasks hrun]
      cases label with
      | none => exact ⟨hafter, hkept.trans hkeeps⟩
      | some name =>
        obtain ⟨hbound, hstored⟩ := bind_spec hafter name hanswer
        exact ⟨hbound, (hkept.trans hkeeps).trans hstored⟩

/-- The records in the reports of a run. -/
def recordsOf (reports : List Report) : List BuildRecord := reports.flatMap Report.records

/-- A public run keeps all hashers at their places, and the records of all of them are in its
    reports. -/
theorem run_spec (hs : s.IsRecorded past) {ops : List (Option String × Operation Expression)}
    (hops : ∀ entry ∈ ops, entry.2.IsPublic) :
    (s.run ops).2.IsRecorded (past ++ recordsOf (s.run ops).1) ∧
      s.store.Keeps (s.run ops).2.store := by
  induction ops generalizing s past with
  | nil => exact ⟨hs.mono (List.subset_append_left _ _), .refl _⟩
  | cons entry rest ih =>
    obtain ⟨label, op⟩ := entry
    rw [List.forall_mem_cons] at hops
    obtain ⟨hstep, hkeeps⟩ := step_spec hs hops.1 label
    obtain ⟨hrun, hrest⟩ := ih hstep hops.2
    rw [List.append_assoc] at hrun
    exact ⟨hrun, hkeeps.trans hrest⟩

theorem run_append (s : Session) (before after : List (Option String × Operation Expression)) :
    (s.run (before ++ after)).2 = ((s.run before).2.run after).2 := by
  induction before generalizing s with
  | nil => rfl
  | cons entry before ih => exact ih (s.step entry.1 entry.2).2

end Session

end CellKeys
