/-
The nest of modules.

A type includes its modules, each module its own, and so on: the include
relation. In a registry where no type is inside itself the relation has a
depth, `nesting`: the number of types inside a type, which drops at every step
inwards and is smaller than the number of types. It bounds every walk through
the modules, so the fuel that the walks are given is never what ends them.

`mixesIn_iff`: the search that guards a new include finds exactly what is
inside a module. `acyclic_of_link`: an include that passes the guard closes no
circle.
-/
import Mathlib.Data.Set.Card
import Mathlib.Logic.Relation
import ObjectModel.Proofs.Registry.Edits

namespace ObjectModel.Registry

variable (r : Registry)

/-- One type has mixed in another directly. -/
def Includes (t m : TypeId) : Prop := m ∈ (r.record t).includes

/-- One type is mixed in by another, directly or through others. -/
abbrev Inside (t m : TypeId) : Prop := Relation.TransGen r.Includes t m

/-- What is mixed in is there, and no type is inside itself. -/
structure Nested : Prop where
  has : ∀ {t m : TypeId}, r.Includes t m → r.Has m
  acyclic : ∀ t : TypeId, ¬ r.Inside t t

/-- The number of types inside a type. -/
noncomputable def nesting (t : TypeId) : Nat := {u | r.Inside t u}.ncard

variable {r}

-- ================================================================ the depth

/-- The types of a registry, as a finite set. -/
theorem setOf_has_eq_image :
    {u | r.Has u} = ((Finset.range r.size).image TypeId.mk : Set TypeId) := by
  ext u
  rw [Finset.mem_coe, Finset.mem_image]
  constructor
  · intro h
    exact ⟨u.index, Finset.mem_range.mpr h, rfl⟩
  · intro h
    obtain ⟨i, hi, rfl⟩ := h
    exact Finset.mem_range.mp hi

theorem finite_setOf_has : {u | r.Has u}.Finite := by
  rw [setOf_has_eq_image]
  exact Finset.finite_toSet _

theorem ncard_setOf_has : {u | r.Has u}.ncard = r.size := by
  rw [setOf_has_eq_image, Set.ncard_coe_finset,
    Finset.card_image_of_injective _ fun a b h => by simpa using h, Finset.card_range]

namespace Nested

variable (nested : r.Nested)

include nested

/-- What is inside a type is there. -/
theorem has_of_inside {t u : TypeId} (h : r.Inside t u) : r.Has u := by
  cases h with
  | single step => exact nested.has step
  | tail _ step => exact nested.has step

theorem inside_subset (t : TypeId) : {u | r.Inside t u} ⊆ {u | r.Has u} :=
  fun _ h => nested.has_of_inside h

theorem finite_inside (t : TypeId) : {u | r.Inside t u}.Finite :=
  finite_setOf_has.subset (nested.inside_subset t)

/-- The depth drops at every step inwards. -/
theorem nesting_lt {t m : TypeId} (step : r.Includes t m) : r.nesting m < r.nesting t := by
  refine Set.ncard_lt_ncard ?_ (nested.finite_inside t)
  refine Set.ssubset_iff_of_subset (fun u h => .head step h) |>.mpr ?_
  exact ⟨m, .single step, nested.acyclic m⟩

/-- The depth is smaller than the number of types. -/
theorem nesting_lt_size {t : TypeId} (pos : 0 < r.size) : r.nesting t < r.size := by
  by_cases has : r.Has t
  · have hlt : {u | r.Inside t u}.ncard < {u | r.Has u}.ncard :=
      Set.ncard_lt_ncard
        (Set.ssubset_iff_of_subset (nested.inside_subset t) |>.mpr
          ⟨t, has, nested.acyclic t⟩)
        finite_setOf_has
    rwa [ncard_setOf_has] at hlt
  · have hempty : {u | r.Inside t u} = ∅ := by
      rw [Set.eq_empty_iff_forall_notMem]
      intro u h
      obtain ⟨m, step, -⟩ := Relation.TransGen.head'_iff.mp h
      unfold Includes at step
      rw [record_of_not_has r has] at step
      cases step
    unfold nesting
    rwa [hempty, Set.ncard_empty]

end Nested

-- =============================================================== the search

/-- What the search finds is inside. -/
theorem inside_of_mixesIn : ∀ (fuel : Nat) {m target : TypeId},
    r.mixesIn fuel m target = true → r.Inside m target := by
  intro fuel
  induction fuel with
  | zero => intro m target h; cases h
  | succ fuel ih =>
      intro m target h
      unfold mixesIn at h
      obtain ⟨inner, hmem, hinner⟩ := List.any_eq_true.mp h
      rcases Bool.or_eq_true_iff.mp hinner with heq | hdeep
      · rw [decide_eq_true_eq] at heq
        subst heq
        exact .single hmem
      · exact .head hmem (ih hdeep)

/-- What is inside is found, once the fuel covers the depth. -/
theorem mixesIn_of_inside (nested : r.Nested) : ∀ (fuel : Nat) {m target : TypeId},
    r.nesting m ≤ fuel → r.Inside m target → r.mixesIn fuel m target = true := by
  intro fuel
  induction fuel with
  | zero =>
      intro m target hle h
      obtain ⟨inner, step, -⟩ := Relation.TransGen.head'_iff.mp h
      have := nested.nesting_lt step
      omega
  | succ fuel ih =>
      intro m target hle h
      obtain ⟨inner, step, hrest⟩ := Relation.TransGen.head'_iff.mp h
      have hlt := nested.nesting_lt step
      unfold mixesIn
      refine List.any_eq_true.mpr ⟨inner, step, ?_⟩
      rw [Bool.or_eq_true_iff, decide_eq_true_eq]
      rcases Relation.reflTransGen_iff_eq_or_transGen.mp hrest with heq | hdeep
      · exact .inl heq.symm
      · exact .inr (ih (by omega) hdeep)

/-- The search that guards an include finds exactly what is inside. -/
theorem mixesIn_iff (nested : r.Nested) (pos : 0 < r.size) {m target : TypeId} :
    r.mixesIn r.size m target = true ↔ r.Inside m target :=
  ⟨inside_of_mixesIn _,
    mixesIn_of_inside nested _ (Nat.le_of_lt (nested.nesting_lt_size pos))⟩

/-- The guard of an include finds out whether the module leads to the target. -/
theorem guard_iff (nested : r.Nested) (pos : 0 < r.size) {m target : TypeId} :
    (decide (target = m) || r.mixesIn r.size m target) = true
      ↔ Relation.ReflTransGen r.Includes m target := by
  rw [Bool.or_eq_true, decide_eq_true_eq, mixesIn_iff nested pos,
    Relation.reflTransGen_iff_eq_or_transGen]

-- ============================================================ one more include

/-- A way through a relation with one more link is a way without the link, or
leads to its start and goes on from its end. -/
theorem transGen_of_link {α : Type} {R R' : α → α → Prop} {a b : α}
    (links : ∀ {x y : α}, R' x y → R x y ∨ (x = a ∧ y = b)) {x y : α}
    (way : Relation.TransGen R' x y) :
    Relation.TransGen R x y
      ∨ (Relation.ReflTransGen R x a ∧ Relation.ReflTransGen R b y) := by
  induction way with
  | single step =>
      rcases links step with hold | ⟨rfl, rfl⟩
      · exact .inl (.single hold)
      · exact .inr ⟨.refl, .refl⟩
  | tail _ step ih =>
      rcases links step with hold | ⟨rfl, rfl⟩
      · rcases ih with hway | ⟨hto, hfrom⟩
        · exact .inl (hway.tail hold)
        · exact .inr ⟨hto, hfrom.tail hold⟩
      · rcases ih with hway | ⟨hto, -⟩
        · exact .inr ⟨hway.to_reflTransGen, .refl⟩
        · exact .inr ⟨hto, .refl⟩

/-- One more link closes no circle unless its end leads back to its start. -/
theorem acyclic_of_link {α : Type} {R R' : α → α → Prop} {a b : α}
    (links : ∀ {x y : α}, R' x y → R x y ∨ (x = a ∧ y = b))
    (acyclic : ∀ x, ¬ Relation.TransGen R x x) (open_ : ¬ Relation.ReflTransGen R b a) (x : α) :
    ¬ Relation.TransGen R' x x := by
  intro circle
  rcases transGen_of_link links circle with hold | ⟨hto, hfrom⟩
  · exact acyclic x hold
  · exact open_ (hfrom.trans hto)

end ObjectModel.Registry
