import CellKeys.Value.Basic

namespace CellKeys

/-- Objects by place, which hold each other by place too, and the number of marks given to numbers.
    -/
structure Store where
  objects : List Value
  numbers : Nat

namespace Store

def empty : Store := ⟨[], 0⟩

/-- Keeps one more object, behind all others. -/
def add (s : Store) (v : Value) : Value × Store :=
  (.object s.objects.length, { s with objects := s.objects ++ [v] })

/-- Gives a number a mark. -/
def addNumber (s : Store) (v : Value) : Value × Store :=
  (v.withMark (some s.numbers), { s with numbers := s.numbers + 1 })

/-- Keeps the hasher that a new pose hasher delegates to. Both have one resolution. -/
def keepOwn (s : Store) (resolution : Value) : Value → Value × Store
  | .slots kind _ size bits underlying .none =>
    s.add (.slots kind resolution size bits underlying .none)
  | v => (v, s)

mutual

/-- Keeps a value: what stands for it from now on. Objects that are kept already stay where they
    are. A hasher that is not kept yet is as it was built. -/
def keep (s : Store) : Value → Value × Store
  | .float x .none => s.addNumber (.float x .none)
  | .scalar x .none => s.addNumber (.scalar x .none)
  | .tuple items =>
    let (items, s) := s.keepAll items
    (.tuple items, s)
  | .list items .none =>
    let (items, s) := s.keepAll items
    s.add (.list items .none)
  | .array kind t .none => s.add (.array kind t .none)
  | .pose x y theta .none =>
    let (x, s) := s.keep x
    let (y, s) := s.keep y
    let (theta, s) := s.keep theta
    s.add (.pose x y theta .none)
  | .foreign name attributes values .none =>
    let (values, s) := s.keepAll values
    s.add (.foreign name attributes values .none)
  | .slots kind resolution size bits underlying .none =>
    let (resolution, s) := s.keep resolution
    let (underlying, s) := s.keepOwn resolution underlying
    s.add (.slots kind resolution size bits underlying .none)
  | .list _ (some place) | .array _ _ (some place) | .pose _ _ _ (some place)
  | .foreign _ _ _ (some place) | .slots _ _ _ _ _ (some place) => (.object place, s)
  | v => (v, s)

/-- Keeps values from left to right. -/
def keepAll (s : Store) : List Value → List Value × Store
  | [] => ([], s)
  | v :: vs =>
    let (v, s) := s.keep v
    let (vs, s) := s.keepAll vs
    (v :: vs, s)

end

/-- Puts another object in the place of one that is kept. -/
def replace (s : Store) (place : Nat) (v : Value) : Store :=
  { s with objects := s.objects.set place v }

end Store

namespace Value

mutual

/-- A value with every place in it replaced by what the function gives for it. -/
def substitute (f : Nat → Value) : Value → Value
  | tuple items => tuple (substituteAll f items)
  | list items m => list (substituteAll f items) m
  | pose x y theta m => pose (x.substitute f) (y.substitute f) (theta.substitute f) m
  | foreign name attributes values m => foreign name attributes (substituteAll f values) m
  | slots kind resolution size bits underlying m =>
    slots kind (resolution.substitute f) (size.substitute f) (bits.substitute f)
      (underlying.substitute f) m
  | object place => f place
  | v => v

/-- Values with every place in them replaced. -/
def substituteAll (f : Nat → Value) : List Value → List Value
  | [] => []
  | v :: vs => v.substitute f :: substituteAll f vs

end

mutual

/-- A value with another one for every array at a place. -/
def exchange (place : Nat) (new : Value) : Value → Value
  | tuple items => tuple (exchangeAll place new items)
  | list items m => list (exchangeAll place new items) m
  | array kind t m => if m = some place then new else array kind t m
  | v => v

/-- Values with another one for every array at a place. -/
def exchangeAll (place : Nat) (new : Value) : List Value → List Value
  | [] => []
  | v :: vs => exchange place new v :: exchangeAll place new vs

end

mutual

/-- Whether a value leads back to itself. -/
def isEndless : Value → Bool
  | tuple items | list items _ | foreign _ _ items _ => anyEndless items
  | pose x y theta _ => x.isEndless || y.isEndless || theta.isEndless
  -- Nothing shows what a hasher delegates to.
  | slots _ resolution size bits _ _ => resolution.isEndless || size.isEndless || bits.isEndless
  | endless => true
  | _ => false

/-- Whether a value of a list leads back to itself. -/
def anyEndless : List Value → Bool
  | [] => false
  | v :: vs => v.isEndless || anyEndless vs

end

end Value

namespace Store

/-- The object at a place, marked with its place, with the objects in it down to a given depth. -/
def fetch (s : Store) : Nat → Nat → Value
  | 0, _ => .endless
  | depth + 1, place => match s.objects[place]? with
    | some v => (v.substitute (s.fetch depth)).withMark (some place)
    | none => .endless

/-- What a kept value stands for now. A chain of objects that is longer than their number comes back
    to itself. -/
def current (s : Store) (v : Value) : Value := v.substitute (s.fetch (s.objects.length + 1))

end Store

end CellKeys
