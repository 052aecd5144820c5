import CellKeys.Tensor

namespace CellKeys

/-- The shape that two shapes spread over, all of them with the last axis first. -/
def joinReversed? : List Nat → List Nat → Option (List Nat)
  | [], ns => some ns
  | ms, [] => some ms
  | m :: ms, n :: ns =>
    if m = n ∨ n = 1 then (joinReversed? ms ns).map (m :: ·)
    else if m = 1 then (joinReversed? ms ns).map (n :: ·)
    else none

/-- The shape that two shapes spread over, if they fit together. -/
def joinShapes? (s t : List Nat) : Option (List Nat) :=
  (joinReversed? s.reverse t.reverse).map List.reverse

namespace Tensor

variable {α β γ : Type}

/-- The entries of an array spread over another shape of as many axes. -/
def spread? : List Nat → List Nat → List α → Option (List α)
  | [], [], xs => some xs
  | m :: source, n :: target, xs => do
    let parts ← (pieces (volume source) m xs).mapM (spread? source target)
    if m = n then some parts.flatten
    else if m = 1 then some (List.replicate n parts.flatten).flatten
    else none
  | _, _, _ => none

/-- The entries of an array spread over another shape with at least as many axes; missing axes come
    in front and have length one. -/
def spreadOver? (source target : List Nat) (xs : List α) : Option (List α) :=
  if source = target then some xs
  else spread? (List.replicate (target.length - source.length) 1 ++ source) target xs

/-- The pairs of entries of two arrays whose shapes fit together. -/
def zip? (s : Tensor α) (t : Tensor β) : Option (Tensor (α × β)) := do
  let shape ← joinShapes? s.shape t.shape
  let xs ← spreadOver? s.shape shape s.entries
  let ys ← spreadOver? t.shape shape t.entries
  ofEntries? shape (xs.zip ys)

/-- A function that may fail gives as many results as there are arguments. -/
theorem length_of_mapM {ε : Type} {f : α → Except ε β} {xs : List α} {ys : List β}
    (h : xs.mapM f = .ok ys) : ys.length = xs.length := by
  induction xs generalizing ys with
  | nil =>
    cases h
    rfl
  | cons x xs ih =>
    rw [List.mapM_cons] at h
    cases hx : f x with
    | error e =>
      rw [hx] at h
      cases h
    | ok y =>
      cases hxs : xs.mapM f with
      | error e =>
        rw [hx, hxs] at h
        cases h
      | ok rest =>
        rw [hx, hxs] at h
        cases h
        simp [ih hxs]

/-- The array of what a function that may fail gives for each entry. -/
def tryMap {ε : Type} (f : α → Except ε β) (t : Tensor α) : Except ε (Tensor β) :=
  match h : t.entries.mapM f with
  | .ok entries => .ok ⟨t.shape, entries, by rw [length_of_mapM h, t.length_entries]⟩
  | .error e => .error e

/-- The single entry of an array that has exactly one. -/
def single? (t : Tensor α) : Option α :=
  match t.entries with
  | [x] => some x
  | _ => none

end Tensor

end CellKeys
