/-
Lists read by place.

Types, objects, layouts and frames are kept in lists, oldest first, and go by
their places. What is made is added at the end, and what changes changes in
place; the lemmas here say what a reader with a default finds afterwards.
-/

namespace ObjectModel

universe u

variable {α : Type u}

/-- The last place holds what was added. -/
theorem getD_concat_self (l : List α) (x d : α) : (l ++ [x]).getD l.length d = x := by
  rw [List.getD_eq_getElem?_getD, List.getElem?_concat_length, Option.getD_some]

/-- All places but the last read the same after something was added. -/
theorem getD_concat_of_ne (l : List α) (x d : α) {i : Nat} (h : i ≠ l.length) :
    (l ++ [x]).getD i d = l.getD i d := by
  rw [List.getD_eq_getElem?_getD, List.getD_eq_getElem?_getD]
  rcases Nat.lt_or_gt_of_ne h with hlt | hgt
  · rw [List.getElem?_append_left hlt]
  · rw [List.getElem?_eq_none (Nat.le_of_lt hgt), List.getElem?_eq_none]
    rw [List.length_append]
    exact hgt

/-- What a place holds it holds after something was added. -/
theorem getElem?_of_longer {l l' : List α} {i : Nat} {x : α} (longer : l <+: l')
    (h : l[i]? = some x) : l'[i]? = some x := by
  obtain ⟨added, rfl⟩ := longer
  rw [List.getElem?_append_left (List.getElem?_eq_some_iff.mp h).1]
  exact h

/-- A place holds what it held, or is the last one and holds what was added. -/
theorem getElem?_concat_cases {l : List α} {i : Nat} {x y : α} (h : (l ++ [x])[i]? = some y) :
    l[i]? = some y ∨ (i = l.length ∧ y = x) := by
  rcases Nat.lt_or_ge i l.length with hlt | hge
  · rw [List.getElem?_append_left hlt] at h
    exact .inl h
  · have hi : i < (l ++ [x]).length := (List.getElem?_eq_some_iff.mp h).1
    rw [List.length_append, List.length_singleton] at hi
    have hlast : i = l.length := by omega
    subst hlast
    rw [List.getElem?_concat_length] at h
    cases h
    exact .inr ⟨rfl, rfl⟩

/-- What is in the first part of a list has a place there. -/
theorem mem_take_iff {l : List α} {k : Nat} {x : α} :
    x ∈ l.take k ↔ ∃ i, i < k ∧ l[i]? = some x := by
  rw [List.mem_iff_getElem?]
  refine exists_congr fun i => ?_
  by_cases hi : i < k
  · rw [List.getElem?_take_of_lt hi]
    simp [hi]
  · rw [List.getElem?_take_eq_none (Nat.le_of_not_lt hi)]
    simp [hi]

/-- A change reaches the place that it is made at, if there is one. -/
theorem getD_modify (l : List α) (i j : Nat) (change : α → α) (d : α) :
    (l.modify i change).getD j d
      = if j = i ∧ i < l.length then change (l.getD i d) else l.getD j d := by
  rw [List.getD_eq_getElem?_getD, List.getD_eq_getElem?_getD, List.getD_eq_getElem?_getD,
    List.getElem?_modify]
  by_cases hji : j = i
  · subst hji
    by_cases hj : j < l.length
    · simp [hj]
    · simp [hj]
  · simp [hji, Ne.symm hji]

end ObjectModel
