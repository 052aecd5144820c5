import CellKeys.Proofs.Session.Assign
import CellKeys.Proofs.Session.Expression
import CellKeys.Proofs.Value.Results

namespace CellKeys

namespace Operation

open Recorded

variable {α : Type}

/-- The operands of an operation, in the order in which they are evaluated. -/
def operands : Operation α → List α
  | wordSize v | wrap v | wrapAll v | isPose v | evaluate v | text v | translation v | angle v
  | readAttribute v _ => [v]
  | quantize v w | bitsPerAxis v w | assignAttribute v _ w | assignItem v _ w | key v w | call v w
  | axes v w | keys v w | axesTable v w | compare v w => [v, w]
  | rotateLeft v w width | stateKey v w width | batchKeys v w width => [v, w] ++ width.toList
  | axisHash v w x width | axisHashes v w x width => [v, w, x] ++ width.toList
  | signWord width => width.toList
  | hasherFor v resolution width => [v] ++ resolution.toList ++ width.toList

/-- The name of the attribute that an operation gives a value. -/
def assignedName? : Operation α → Option String
  | assignAttribute _ name _ => some name
  | _ => none

/-- The operands have no say in which attribute is given a value. -/
theorem ensures_traverse {β : Type} (f : α → Recorded β) (op : Operation α) :
    Ensures (op.traverse f) fun asked => asked.assignedName? = op.assignedName? := by
  cases op with
  | wordSize | wrap | wrapAll | isPose | evaluate | text | translation | angle | readAttribute
  | signWord =>
    exact .bind fun _ => .pure rfl
  | quantize | bitsPerAxis | assignAttribute | assignItem | key | call | axes | keys | axesTable
  | compare =>
    exact .bind fun _ => .bind fun _ => .pure rfl
  | rotateLeft | stateKey | batchKeys | hasherFor =>
    exact .bind fun _ => .bind fun _ => .bind fun _ => .pure rfl
  | axisHash | axisHashes =>
    exact .bind fun _ => .bind fun _ => .bind fun _ => .bind fun _ => .pure rfl

/-- An operation over values that were just written down, hashers built on the way and stored
    objects, which gives no value to an attribute whose name starts with an underscore. -/
structure IsPublic (op : Operation Expression) : Prop where
  literals : ∀ e ∈ op.operands, ∀ v ∈ e.literals, v.isFresh = true
  name : ∀ name, op.assignedName? = some name → IsPublicName name

theorem yields_traverse {Q : Property} {f : α → Recorded Value} {op : Operation α}
    (hf : ∀ a ∈ op.operands, Yields Q [] (f a) ([·])) :
    Yields Q [] (op.traverse f) operands := by
  -- Each shape of operands is one chain of evaluations.
  cases op with
  | wordSize v | wrap v | wrapAll v | isPose v | evaluate v | text v | translation v | angle v
  | readAttribute v name =>
    exact .bind (hf v List.mem_cons_self) fun a => .known_parts (List.Subset.refl _)
  | quantize v w | bitsPerAxis v w | assignAttribute v name w | assignItem v index w | key v w
  | call v w | axes v w | keys v w | axesTable v w | compare v w =>
    refine .bind (hf v (by simp [operands])) fun a => ?_
    refine .bind ((hf w (by simp [operands])).weaken (List.nil_subset _)) fun b => ?_
    exact .known_parts (List.Subset.refl _)
  | rotateLeft v w width | stateKey v w width | batchKeys v w width =>
    refine .bind (hf v (by simp [operands])) fun a => ?_
    refine .bind ((hf w (by simp [operands])).weaken (List.nil_subset _)) fun b => ?_
    refine .bind (.mapM_option fun e he => (hf e ?_).weaken (List.nil_subset _)) fun c => ?_
    · exact List.mem_append_right _ he
    · exact .known_parts (List.Subset.refl _)
  | axisHash v w x width | axisHashes v w x width =>
    refine .bind (hf v (by simp [operands])) fun a => ?_
    refine .bind ((hf w (by simp [operands])).weaken (List.nil_subset _)) fun b => ?_
    refine .bind ((hf x (by simp [operands])).weaken (List.nil_subset _)) fun c => ?_
    refine .bind (.mapM_option fun e he => (hf e ?_).weaken (List.nil_subset _)) fun d => ?_
    · exact List.mem_append_right _ he
    · exact .known_parts (by simp [operands])
  | signWord width =>
    exact .bind (.mapM_option fun e he => hf e he) fun a => .known_parts (List.Subset.refl _)
  | hasherFor v resolution width =>
    refine .bind (hf v (by simp [operands])) fun a => ?_
    refine .bind (.mapM_option fun e he => (hf e ?_).weaken (List.nil_subset _)) fun b => ?_
    · exact List.mem_append_left _ (List.mem_append_right _ he)
    refine .bind (.mapM_option fun e he => (hf e ?_).weaken (List.nil_subset _)) fun c => ?_
    · exact List.mem_append_right _ he
    · exact .known_parts (List.Subset.refl _)

end Operation

/-- The values that an answer consists of. -/
def Answer.values : Answer → List Value
  | value v => [v]
  | _ => []

namespace Operation

open Recorded Value

theorem yields_valued {past : List BuildRecord} {known : List Value} {result : Except Fault Value}
    (h : ∀ log, (∀ v ∈ known, v.RecordedIn log) → Gives result (Value.RecordedIn log)) :
    Yields (recordedAfter past) known (answer.valued result) Answer.values := by
  refine .of fun log hknown a ha => ?_
  cases result with
  | error e => cases ha
  | ok v =>
    cases ha
    exact List.forall_mem_singleton.mpr (h _ hknown v rfl)

/-- The hashers in an answer are hashers of the operands, delegates of them, or recorded when they
    were built. -/
theorem yields_answer {past : List BuildRecord} (op : Operation Value) :
    Yields (recordedAfter past) op.operands op.answer Answer.values := by
  cases op with
  | wordSize v => exact .of_bind fun w => .known_parts (List.nil_subset _)
  | rotateLeft word amount width =>
    refine yields_valued fun log hknown => Gives.last fun w => ?_
    exact gives_rotateValue w (hknown word List.mem_cons_self) (.value amount)
  | signWord width =>
    exact yields_valued fun log _ => Gives.last fun w => Gives.pure trivial
  | axisHash value bits axis width =>
    exact yields_valued fun log _ => Gives.last fun w => gives_axisHashValue w value bits axis
  | axisHashes values bits axis width =>
    exact yields_valued fun log _ => Gives.last fun w => Gives.last fun t => Gives.pure trivial
  | quantize value div => exact yields_valued fun log _ => gives_quantize value div
  | bitsPerAxis width count => exact yields_valued fun log _ => gives_bitsFor width count
  | stateKey values resolution width =>
    exact yields_valued fun log _ => Gives.last fun w => Gives.last fun key => Gives.pure trivial
  | batchKeys values resolution width =>
    exact yields_valued fun log _ => Gives.last fun w => Gives.last fun t => Gives.pure trivial
  | wrap theta => exact yields_valued fun log _ => Gives.last fun x => Gives.pure trivial
  | wrapAll thetas => exact yields_valued fun log _ => Gives.last fun t => Gives.pure trivial
  | isPose state => exact yields_valued fun log _ => Gives.pure trivial
  | hasherFor sample resolution width =>
    have hbuilt : ∀ log h, h.RecordedIn log →
        (recordedAfter past).holds log (.hasher h .none) := by
      intro log h hh
      exact eachHasher_hasher (List.Subset.trans hh (List.subset_append_right past log)) .none
    exact .bind (.hasher hbuilt _) fun h => .known_parts (List.subset_append_right _ _)
  | evaluate value =>
    exact yields_valued fun log hknown => Gives.pure (hknown value List.mem_cons_self)
  | text value => exact yields_valued fun log _ => Gives.last fun text => Gives.pure trivial
  | translation on =>
    exact yields_valued fun log hknown => gives_translation (hknown on List.mem_cons_self)
  | angle on => exact yields_valued fun log hknown => gives_angle (hknown on List.mem_cons_self)
  | readAttribute on name =>
    exact yields_valued fun log hknown =>
      gives_readAttribute (fun _ => Hasher.RecordedIn.delegate) (hknown on List.mem_cons_self) name
  | assignAttribute on name new => exact yields_valued fun log _ => Gives.pure trivial
  | assignItem on index new => exact yields_valued fun log _ => Gives.pure trivial
  | key on state | call on state =>
    exact yields_valued fun log _ => Gives.last fun f => Gives.last fun key => Gives.pure trivial
  | axes on state =>
    refine yields_valued fun log hknown => ?_
    have hstate := hknown state (List.mem_cons_of_mem _ List.mem_cons_self)
    exact Gives.bind (gives_axesFunction on hstate) fun f hf => hf
  | keys on states =>
    exact yields_valued fun log _ => Gives.last fun h => Gives.last fun t => Gives.pure trivial
  | axesTable on states =>
    exact yields_valued fun log _ => Gives.bind (gives_tableFunction on states) fun f hf => hf
  | compare a b =>
    refine .of fun log _ => ?_
    unfold Value.compare
    -- Neither way out of the comparison leads to a value.
    refine Gives.last fun equal => Gives.ite (Gives.pure ?_) (Gives.ite ?_ (Gives.pure ?_))
    · exact nofun
    · exact Gives.error _ _
    · exact nofun

end Operation

namespace Value

variable {P : Hasher → Prop} {place : Nat} {new : Value}

mutual

theorem EachHasher.exchange (hnew : new.EachHasher P) {v : Value} (hv : v.EachHasher P) :
    (exchange place new v).EachHasher P := by
  cases v with
  | tuple items =>
    exact eachHasher_tuple.mpr (eachHasher_exchangeAll hnew (eachHasher_tuple.mp hv))
  | list items m =>
    exact eachHasher_list.mpr (eachHasher_exchangeAll hnew (eachHasher_list.mp hv))
  | array kind t m =>
    rw [Value.exchange]
    split
    · exact hnew
    · exact hv
  | _ => exact hv

theorem eachHasher_exchangeAll (hnew : new.EachHasher P) {vs : List Value}
    (hvs : ∀ v ∈ vs, v.EachHasher P) : ∀ v ∈ exchangeAll place new vs, v.EachHasher P := by
  cases vs with
  | nil => nofun
  | cons v vs =>
    rw [List.forall_mem_cons] at hvs
    exact List.forall_mem_cons.mpr ⟨hnew.exchange hvs.1, eachHasher_exchangeAll hnew hvs.2⟩

end

end Value

namespace Store

open Value

variable {log : List BuildRecord} {s : Store}

/-- A rotation by a kept array of amounts replaces the array first, and nothing else is prepared. -/
theorem prepare_cases (s : Store) (op : Operation Value) :
    s.prepare op = (op, s) ∨ ∃ word kind t place width left,
      op = .rotateLeft word (.array kind t (some place)) width ∧
      s.prepare op =
        (.rotateLeft (exchange place (.array kind left (some place)) word)
          (.array kind t (some place)) width, s.replace place (.array kind left .none)) := by
  cases op with
  | rotateLeft word amount width =>
    cases amount with
    | array kind t m =>
      cases m with
      | none => exact .inl rfl
      | some place =>
        simp only [prepare]
        cases Value.widthOr width with
        | error e => exact .inl rfl
        | ok w =>
          cases hleft : Operand.turnEntries w kind t with
          | error e => exact .inl (by simp only [hleft])
          | ok left => exact .inr ⟨_, _, _, _, _, left, rfl, by simp only [hleft]⟩
    | _ => exact .inl rfl
  | _ => exact .inl rfl

theorem assignedName?_prepare (s : Store) (op : Operation Value) :
    (s.prepare op).1.assignedName? = op.assignedName? := by
  rcases prepare_cases s op with hsame | ⟨word, kind, t, place, width, left, rfl, hreplaced⟩
  · rw [hsame]
  · rw [hreplaced]
    rfl

theorem prepare_spec (hs : s.IsRecorded log) {op : Operation Value}
    (hop : ∀ v ∈ op.operands, v.RecordedIn log ∧ v.Matches s) :
    (∀ v ∈ (s.prepare op).1.operands, v.RecordedIn log) ∧ (s.prepare op).2.IsRecorded log ∧
      s.Keeps (s.prepare op).2 := by
  rcases prepare_cases s op with hsame | ⟨word, kind, t, place, width, left, rfl, hreplaced⟩
  · rw [hsame]
    exact ⟨fun v hv => (hop v hv).1, hs, .refl s⟩
  · have hfree := (hop _ (List.mem_cons_of_mem _ List.mem_cons_self)).2.array kind t place rfl
    have harray : ∀ m, (Value.array kind left m).HoldsNone := fun _ => trivial
    rw [hreplaced]
    have hobject : ∀ other, Value.array kind left .none ≠ .object other := by simp
    refine ⟨?_, isRecorded_replace hs hfree (harray .none) hobject, keeps_replace hfree _⟩
    intro v hv
    rcases List.mem_cons.mp hv with rfl | hrest
    · exact EachHasher.exchange (harray (some place)).each (hop word List.mem_cons_self).1
    · exact (hop v (List.mem_cons_of_mem _ hrest)).1

end Store

end CellKeys
