import CellKeys.Session.Store

namespace CellKeys.Store

/-- The second store has everything of the first in its place. -/
def Extends (s t : Store) : Prop := ∃ more, t.objects = s.objects ++ more

theorem Extends.refl (s : Store) : Extends s s := ⟨[], by simp⟩

theorem Extends.trans {s t u : Store} (hst : Extends s t) (htu : Extends t u) : Extends s u := by
  obtain ⟨more, hst⟩ := hst
  obtain ⟨most, htu⟩ := htu
  exact ⟨more ++ most, by rw [htu, hst, List.append_assoc]⟩

/-- An object stays at its place in every store that extends the first. -/
theorem Extends.getElem? {s t : Store} (hst : Extends s t) {place : Nat} {v : Value}
    (h : s.objects[place]? = some v) : t.objects[place]? = some v := by
  obtain ⟨more, hst⟩ := hst
  have hlt : place < s.objects.length := (List.getElem?_eq_some_iff.mp h).1
  rw [hst, List.getElem?_append_left hlt]
  exact h

theorem extends_add (s : Store) (v : Value) : Extends s (s.add v).2 := ⟨[v], rfl⟩

theorem extends_addNumber (s : Store) (v : Value) : Extends s (s.addNumber v).2 :=
  ⟨[], by simp [addNumber]⟩

theorem extends_keepOwn (s : Store) (resolution v : Value) :
    Extends s (s.keepOwn resolution v).2 := by
  unfold keepOwn
  split
  · exact extends_add _ _
  · exact .refl s

mutual

/-- Keeping a value extends the store. -/
theorem extends_keep (s : Store) (v : Value) : Extends s (s.keep v).2 := by
  cases v with
  | tuple items => exact extends_keepAll s items
  | list items mark =>
    cases mark with
    | none => exact (extends_keepAll s items).trans (extends_add _ _)
    | some place => exact .refl s
  | pose x y theta mark =>
    cases mark with
    | none =>
      have hx := extends_keep s x
      have hy := extends_keep (s.keep x).2 y
      have htheta := extends_keep ((s.keep x).2.keep y).2 theta
      exact ((hx.trans hy).trans htheta).trans (extends_add _ _)
    | some place => exact .refl s
  | foreign name attributes values mark =>
    cases mark with
    | none => exact (extends_keepAll s values).trans (extends_add _ _)
    | some place => exact .refl s
  | float x mark | scalar x mark =>
    cases mark with
    | none => exact extends_addNumber _ _
    | some place => exact .refl s
  | array kind t mark =>
    cases mark with
    | none => exact extends_add _ _
    | some place => exact .refl s
  | slots kind resolution size bits underlying mark =>
    cases mark with
    | none =>
      have hresolution := extends_keep s resolution
      exact (hresolution.trans (extends_keepOwn _ _ underlying)).trans (extends_add _ _)
    | some place => exact .refl s
  | _ => exact .refl s

/-- Keeping a list of values extends the store. -/
theorem extends_keepAll (s : Store) (vs : List Value) : Extends s (s.keepAll vs).2 := by
  cases vs with
  | nil => exact .refl s
  | cons v vs => exact (extends_keep s v).trans (extends_keepAll _ vs)

end

end CellKeys.Store
