import CellKeys.Session.Operation
import CellKeys.Value.Item

namespace CellKeys

/-- The kept objects and the names they are stored under, the latest first. -/
structure Session where
  store : Store
  names : List (String × Value)

/-- What is reported about one operation. -/
structure Report where
  outcome : Except Fault Answer
  records : List BuildRecord

namespace Store

/-- Assigns to a part of an object: the object becomes what the function makes of it and of the new
    value. An object that is not kept is checked but left alone, since nothing can see it
    afterwards. -/
def assign (s : Store) (on new : Value) (change : Value → Value → Except Fault Value) :
    Except Fault Store := do
  let _ ← change on new
  match on.mark with
  | none => return s
  | some place =>
    let (stored, s) := s.keep new
    match s.objects[place]? with
    | some v => return s.replace place (← change v stored)
    | none => return s

/-- What a rotation does first: a kept array of amounts is left with what remains of them after full
    turns, and its word sees that where it holds the same array. -/
def prepare (s : Store) : Operation Value → Operation Value × Store
  | .rotateLeft word amount width =>
    match amount, Value.widthOr width with
    | .array kind t (some place), .ok w => match Operand.turnEntries w kind t with
      | .ok left =>
        (.rotateLeft (Value.exchange place (.array kind left (some place)) word) amount width,
          s.replace place (.array kind left none))
      | .error _ => (.rotateLeft word amount width, s)
    | _, _ => (.rotateLeft word amount width, s)
  | op => (op, s)

/-- The objects after an operation over values. -/
def after (s : Store) : Operation Value → Except Fault Store
  | .assignAttribute on name new =>
    s.assign on new fun v stored => v.assignAttribute name stored
  | .assignItem on index new => s.assign on new fun v stored => v.assignItem index new stored
  | _ => .ok s

end Store

namespace Session

def empty : Session := ⟨.empty, []⟩

/-- The value that a name stands for now. -/
def lookup (s : Session) (name : String) : Option Value :=
  (s.names.lookup name).map s.store.current

/-- The answer to an operation over values and the objects after it. A value that leads back to
    itself has no answer. -/
def perform (s : Session) (op : Operation Value) : Recorded (Answer × Store) := do
  let answer ← op.answer
  let store ← Recorded.of (s.store.after op)
  match answer with
  | .value v => if v.isEndless then throw .endless
  | _ => pure ()
  return (answer, store)

/-- Stores an answer under a name. Only values can be stored. -/
def bind (s : Session) (name : String) : Answer → Session
  | .value v =>
    let (kept, store) := s.store.keep v
    ⟨store, (name, kept) :: s.names⟩
  | _ => ⟨s.store, (name, .none) :: s.names⟩

/-- One operation, whose answer may be stored under a name. -/
def step (s : Session) (name : Option String) (op : Operation Expression) : Report × Session :=
  match (op.traverse (Expression.eval s.lookup)).run [] with
  | (.error e, records) => (⟨.error e, records⟩, s)
  | (.ok op, records) =>
    let (op, store) := s.store.prepare op
    let s := { s with store }
    match (s.perform op).run records with
    | (.ok (answer, store), records) =>
      let s := { s with store }
      (⟨.ok answer, records⟩, (name.map (s.bind · answer)).getD s)
    | (.error e, records) => (⟨.error e, records⟩, s)

/-- Operations in order, with their reports. -/
def run (s : Session) : List (Option String × Operation Expression) → List Report × Session
  | [] => ([], s)
  | (name, op) :: rest =>
    let (report, s) := s.step name op
    let (reports, s) := s.run rest
    (report :: reports, s)

end Session

end CellKeys
