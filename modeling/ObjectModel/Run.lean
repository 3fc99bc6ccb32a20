/-
Runs, as lists of what happens.

A system is a state and a total `act` that says what each action makes of it. A
run is a list of actions; it may be asked of each that it is allowed in the
state that it finds. What allowed actions keep, an allowed run keeps.
-/

namespace ObjectModel

universe u v

variable {σ : Type u} {α : Type v} {act : σ → α → σ} {allowed allowed' : σ → α → Prop}

/-- Every action of a run is allowed in the state that it finds. -/
def Along (act : σ → α → σ) (allowed : σ → α → Prop) : σ → List α → Prop
  | _, [] => True
  | s, x :: xs => allowed s x ∧ Along act allowed (act s x) xs

instance Along.decidable (act : σ → α → σ) (allowed : σ → α → Prop)
    [∀ s x, Decidable (allowed s x)] :
    (s : σ) → (xs : List α) → Decidable (Along act allowed s xs)
  | _, [] => .isTrue trivial
  | s, x :: xs =>
    have := Along.decidable act allowed (act s x) xs
    inferInstanceAs (Decidable (_ ∧ _))

namespace Along

variable {s : σ} {xs ys : List α}

/-- The parts of an allowed run are allowed. -/
theorem append_iff : Along act allowed s (xs ++ ys)
    ↔ Along act allowed s xs ∧ Along act allowed (xs.foldl act s) ys := by
  induction xs generalizing s with
  | nil => exact ⟨fun h => ⟨trivial, h⟩, fun h => h.2⟩
  | cons x xs ih =>
      show allowed s x ∧ Along act allowed (act s x) (xs ++ ys) ↔ _
      rw [ih]
      exact and_assoc.symm

theorem imp (step : ∀ s x, allowed s x → allowed' s x) (along : Along act allowed s xs) :
    Along act allowed' s xs := by
  induction xs generalizing s with
  | nil => trivial
  | cons x xs ih => exact ⟨step s x along.1, ih along.2⟩

/-- What every allowed action keeps, an allowed run keeps. -/
theorem keeps {P : σ → Prop} (along : Along act allowed s xs)
    (step : ∀ s x, P s → allowed s x → P (act s x)) (start : P s) : P (xs.foldl act s) := by
  induction xs generalizing s with
  | nil => exact start
  | cons x xs ih => exact ih along.2 (step s x start along.1)

end Along

end ObjectModel
