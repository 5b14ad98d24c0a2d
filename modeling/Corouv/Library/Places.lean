import Mathlib.Data.List.Basic

/-!
# Places of a list

The parties of a system are kept in a list and known by their places.  A new one is put at
the end, and one that takes a step is replaced where it stands.
-/

namespace Library

variable {α σ : Type} {items : List α} {place other : ℕ} {item new : α}

theorem getElem?_append_of_eq_some (found : items[place]? = some item) (later : List α) :
    (items ++ later)[place]? = some item :=
  (List.getElem?_append_left (List.getElem?_eq_some_iff.mp found).1).trans found

theorem getElem?_concat_cases (found : (items ++ [new])[place]? = some item) :
    items[place]? = some item ∨ item = new := by
  by_cases old : place < items.length
  · exact .inl ((List.getElem?_append_left old).symm.trans found)
  · right
    apply List.mem_singleton.mp
    exact List.mem_of_getElem?
      ((List.getElem?_append_right (Nat.le_of_not_lt old)).symm.trans found)

theorem getElem?_set_of_eq_some (found : items[place]? = some item) (new : α) :
    (items.set place new)[place]? = some new :=
  List.getElem?_set_self (List.getElem?_eq_some_iff.mp found).1

theorem getElem?_set_cases (found : (items.set place new)[other]? = some item) :
    place = other ∧ item = new ∨ place ≠ other ∧ items[other]? = some item := by
  by_cases here : place = other
  · subst here
    rw [List.getElem?_set_self'] at found
    rcases Option.map_eq_some_iff.mp found with ⟨_, _, same⟩
    exact .inl ⟨rfl, same.symm⟩
  · exact .inr ⟨here, (List.getElem?_set_ne here).symm.trans found⟩

/-- A step of one party is a step of the item at its place. -/
theorem of_step_at {change : α → Option σ} {next : σ} {holds : Prop}
    (taken : items[place]?.bind change = some next)
    (kept : ∀ {item}, items[place]? = some item → change item = some next → holds) : holds := by
  rcases Option.bind_eq_some_iff.mp taken with ⟨_, found, changed⟩
  exact kept found changed

end Library
