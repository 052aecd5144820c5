namespace CellKeys

/-- Number of entries in an array of this shape. -/
def volume : List Nat → Nat
  | [] => 1
  | n :: rest => n * volume rest

/-- An array: its shape and its entries in row-major order. -/
structure Tensor (α : Type) where
  shape : List Nat
  entries : List α
  length_entries : entries.length = volume shape

namespace Tensor

variable {α β : Type}

/-- The array of this shape with these entries, if their number is right. -/
def ofEntries? (shape : List Nat) (entries : List α) : Option (Tensor α) :=
  if h : entries.length = volume shape then some ⟨shape, entries, h⟩ else none

/-- The array without axes that holds one entry. -/
def single (x : α) : Tensor α := ⟨[], [x], rfl⟩

/-- The array with one axis that holds these entries. -/
def ofList (xs : List α) : Tensor α := ⟨[xs.length], xs, by simp [volume]⟩

/-- The array without entries, of this shape behind an empty first axis. -/
def empty (rest : List Nat) : Tensor α := ⟨0 :: rest, [], by simp [volume]⟩

def map (f : α → β) (t : Tensor α) : Tensor β :=
  ⟨t.shape, t.entries.map f, by simp [t.length_entries]⟩

def isEmpty (t : Tensor α) : Bool := t.entries.isEmpty

/-- Cuts a list into this many pieces of one size. -/
def pieces (size : Nat) : Nat → List α → List (List α)
  | 0, _ => []
  | count + 1, xs => xs.take size :: pieces size count (xs.drop size)

/-- The entries with the same index along the first axis, one list for each index. -/
def rows (t : Tensor α) : List (List α) :=
  match t.shape with
  | [] => []
  | n :: rest => pieces (volume rest) n t.entries

/-- The entries of each row at this place. -/
def column (t : Tensor α) (place : Nat) : List α := t.rows.filterMap (·[place]?)

/-- The arrays that an array with at least one axis consists of. -/
def slices (t : Tensor α) : List (Tensor α) :=
  t.rows.filterMap (ofEntries? t.shape.tail)

/-- The same entries in another shape, if their number is right. -/
def reshape? (shape : List Nat) (t : Tensor α) : Option (Tensor α) := ofEntries? shape t.entries

theorem length_pieces (size count : Nat) (xs : List α) : (pieces size count xs).length = count := by
  induction count generalizing xs with
  | zero => rfl
  | succ count ih => simp [pieces, ih]

/-- An array with axes has as many rows as its first axis is long. -/
theorem length_rows (t : Tensor α) {n : Nat} {rest : List Nat} (h : t.shape = n :: rest) :
    t.rows.length = n := by
  unfold rows
  rw [h]
  exact length_pieces _ _ _

theorem shape_map (f : α → β) (t : Tensor α) : (t.map f).shape = t.shape := rfl

end Tensor

end CellKeys
