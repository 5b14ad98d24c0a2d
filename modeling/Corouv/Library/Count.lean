import Mathlib.Data.List.Forall2

/-!
# Counting the items of a list

How a count changes when an item is replaced, and how counts of different properties
compare.
-/

namespace Library

variable {α β : Type}

variable {items : List α} {p : α → Bool}

theorem countP_set_add {index : ℕ} {item : α} (found : items[index]? = some item) (item' : α)
    (p : α → Bool) :
    (items.set index item').countP p + (p item).toNat = items.countP p + (p item').toNat := by
  rcases List.getElem?_eq_some_iff.mp found with ⟨bound, rfl⟩
  rw [List.countP_set bound]
  cases before : p items[index] with
  | false => cases p item' <;> simp
  | true =>
      have positive : 0 < items.countP p :=
        List.countP_pos_iff.mpr ⟨_, List.getElem_mem bound, before⟩
      cases p item' <;> simp <;> omega

theorem countP_concat (items : List α) (item : α) (p : α → Bool) :
    (items ++ [item]).countP p = items.countP p + (p item).toNat := by
  rw [List.countP_append, List.countP_singleton]
  cases p item <;> rfl

/-- A predicate that holds at most once holds at one place only. -/
theorem eq_of_countP_le_one (atMost : items.countP p ≤ 1) {place other : ℕ} {item item' : α}
    (found : items[place]? = some item) (holds : p item = true)
    (found' : items[other]? = some item') (holds' : p item' = true) : place = other := by
  induction items generalizing place other with
  | nil => cases found
  | cons _ rest ih =>
      rw [List.countP_cons] at atMost
      have later : ∀ {index : ℕ} {match' : α}, rest[index]? = some match' → p match' = true →
          0 < rest.countP p := by
        intro _ match' here holds
        exact List.countP_pos_iff.mpr ⟨match', List.mem_of_getElem? here, holds⟩
      cases place with
      | zero =>
          cases found
          cases other with
          | zero => rfl
          | succ other =>
              have more := later found' holds'
              rw [if_pos holds] at atMost
              omega
      | succ _ =>
          cases other with
          | zero =>
              cases found'
              have more := later found holds
              rw [if_pos holds'] at atMost
              omega
          | succ _ => exact congrArg Nat.succ (ih (by omega) found found')

theorem countP_or_of_disjoint {q : α → Bool}
    (disjoint : ∀ item ∈ items, p item = true → q item = false) :
    items.countP (fun item => p item || q item) = items.countP p + items.countP q := by
  induction items with
  | nil => rfl
  | cons item _ ih =>
      have rest := ih fun other member => disjoint other (List.mem_cons_of_mem item member)
      have here := disjoint item List.mem_cons_self
      simp only [List.countP_cons, rest]
      cases one : p item with
      | true =>
          simp only [here one, Bool.or_false, if_true, Bool.false_eq_true, if_false]
          omega
      | false =>
          simp only [Bool.false_or, Bool.false_eq_true, if_false]
          omega

theorem countP_add_le {q r : α → Bool}
    (pointwise : ∀ item, (p item).toNat + (q item).toNat ≤ (r item).toNat) :
    items.countP p + items.countP q ≤ items.countP r := by
  induction items with
  | nil => exact Nat.le_refl _
  | cons item items _ =>
      have here := pointwise item
      have step (s : α → Bool) : (item :: items).countP s = items.countP s + (s item).toNat := by
        rw [List.countP_cons]
        cases s item <;> rfl
      rw [step p, step q, step r]
      omega

theorem countP_le_of_getElem? {q : β → Bool} {others : List β}
    (matched : ∀ (index : ℕ) (item : α), items[index]? = some item → p item = true →
      ∃ other, others[index]? = some other ∧ q other = true) :
    items.countP p ≤ others.countP q := by
  induction items generalizing others with
  | nil => exact Nat.zero_le _
  | cons item items ih =>
      cases others with
      | nil =>
          rw [List.countP_eq_zero.mpr]
          · exact Nat.zero_le _
          · intro other member holds
            rcases List.getElem?_of_mem member with ⟨index, found⟩
            rcases matched index other found holds with ⟨_, absent, -⟩
            simp at absent
      | cons other others =>
          have rest : items.countP p ≤ others.countP q := by
            apply ih
            intro index item' found
            simpa using matched (index + 1) item' found
          simp only [List.countP_cons]
          by_cases holds : p item = true
          · have here : q other = true := by simpa using matched 0 item rfl holds
            rw [if_pos holds, if_pos here]
            omega
          · rw [if_neg holds]
            omega

end Library
