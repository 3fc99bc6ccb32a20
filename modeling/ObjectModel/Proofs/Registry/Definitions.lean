/-
What a definition did, refused or not.

A definition looks before it makes anything, so a refused one leaves the
registry that it found (`Looks`), and one that was made leaves a registry that
is known entirely: the old one, if the type was there, or the old one after the
edits said here. Whoever proves something of a definition goes on from these
edits and never opens it. The recursion that makes singleton types is a row of
one edit (`singletonWithin_keeps`).
-/
import ObjectModel.Proofs.Registry.Edits

namespace ObjectModel.Registry

variable {r r' : Registry} {parent t : TypeId} {name : String}

/-- A call that was refused left the registry as it was. -/
structure Looks {α : Type} (r : Registry) (made : Except RegistryError α × Registry) : Prop where
  kept : ∀ {e : RegistryError}, made.1 = .error e → made.2 = r

/-- What holds of the old registry and of whatever a call makes holds after the
call. -/
theorem Looks.keeps {P : Registry → Prop} {α : Type} {made : Except RegistryError α × Registry}
    (looks : r.Looks made) (old : P r) (new : ∀ {x r'}, made = (.ok x, r') → P r') : P made.2 := by
  obtain ⟨answer, r'⟩ := made
  cases answer with
  | ok x => exact new rfl
  | error e =>
      obtain rfl : r' = r := looks.kept rfl
      exact old

-- ============================================================== what is refused

theorem looks_defineAnonymousClass (r : Registry) (superclass : TypeId) (shape : Option Shape) :
    r.Looks (r.defineAnonymousClass superclass shape) := by
  refine ⟨fun {e} h => ?_⟩
  unfold defineAnonymousClass at h ⊢
  split at h
  · cases h
  · next module_ => rw [if_neg module_]

theorem looks_defineClassUnder (r : Registry) (parent : TypeId) (superclass : Option TypeId)
    (name : String) (shape : Option Shape) :
    r.Looks (r.defineClassUnder parent superclass name shape) := by
  refine ⟨fun {e} h => ?_⟩
  unfold defineClassUnder at h ⊢
  split
  · split
    · rfl
    · split
      · rfl
      · rfl
  · next free =>
    rw [free] at h
    cases superclass with
    | none => rfl
    | some s =>
        have hlooks := looks_defineAnonymousClass r s shape
        dsimp only at h ⊢
        generalize r.defineAnonymousClass s shape = made at h hlooks ⊢
        obtain ⟨answer, r'⟩ := made
        cases answer with
        | error e' => exact hlooks.kept rfl
        | ok t => cases h

theorem looks_defineModuleUnder (r : Registry) (parent : TypeId) (name : String) :
    r.Looks (r.defineModuleUnder parent name) := by
  refine ⟨fun {e} h => ?_⟩
  unfold defineModuleUnder at h ⊢
  split
  · split
    · rfl
    · rfl
  · next free =>
    rw [free] at h
    cases h

theorem looks_includeModule (r : Registry) (target m : TypeId) :
    r.Looks (r.includeModule target m) := by
  refine ⟨fun {e} h => ?_⟩
  unfold includeModule at h ⊢
  split
  · rfl
  · next module_ =>
    rw [if_neg module_] at h
    split
    · rfl
    · next open_ =>
      rw [if_neg open_] at h
      cases h

-- ================================================================= what is made

/-- A class without a name is made below a class. -/
theorem defineAnonymousClass_inv {superclass : TypeId} {shape : Option Shape}
    (h : r.defineAnonymousClass superclass shape = (.ok t, r')) :
    (r.record superclass).kind = .classType
      ∧ r.allocType .classType Core.classType (some superclass)
          (shape.getD (r.record superclass).shape) = (t, r') := by
  unfold defineAnonymousClass at h
  split at h
  · next class_ =>
    cases h
    exact ⟨class_, rfl⟩
  · cases h

/-- A class is reopened, or made without a name and then given one that was free. -/
theorem defineClassUnder_inv {superclass : Option TypeId} {shape : Option Shape}
    (h : r.defineClassUnder parent superclass name shape = (.ok t, r')) :
    (r' = r ∧ ∃ bound, r.typeOfKind? bound .classType = some t)
      ∨ ∃ s made, superclass = some s ∧ r.constant? parent name = none
        ∧ r.defineAnonymousClass s shape = (.ok t, made) ∧ r' = made.adopt t parent name := by
  unfold defineClassUnder at h
  split at h
  · next bound _ =>
    split at h
    · cases h
    · next existing hbound =>
      split at h
      · cases h
      · cases h
        exact .inl ⟨rfl, bound, hbound⟩
  · next free =>
    cases superclass with
    | none => cases h
    | some s =>
        dsimp only at h
        cases hmade : r.defineAnonymousClass s shape with
        | mk answer made =>
            rw [hmade] at h
            cases answer with
            | error e => cases h
            | ok u =>
                cases h
                exact .inr ⟨s, made, rfl, free, hmade, rfl⟩

/-- A module is reopened, or made and given a name that was free. -/
theorem defineModuleUnder_inv (h : r.defineModuleUnder parent name = (.ok t, r')) :
    (r' = r ∧ ∃ bound, r.typeOfKind? bound .moduleType = some t)
      ∨ ∃ made, r.constant? parent name = none
        ∧ r.allocType .moduleType Core.moduleType none moduleShape = (t, made)
        ∧ r' = made.adopt t parent name := by
  unfold defineModuleUnder at h
  split at h
  · next bound _ =>
    split at h
    · next existing hbound =>
      cases h
      exact .inl ⟨rfl, bound, hbound⟩
    · cases h
  · next free =>
    cases h
    exact .inr ⟨_, free, rfl, rfl⟩

/-- A module is put in front of what a type includes, if it is another one and
the type is not inside it. -/
theorem includeModule_inv {target m : TypeId} (h : r.includeModule target m = (.ok (), r')) :
    (r.record m).kind = .moduleType ∧ target ≠ m ∧ r.mixesIn r.size m target = false
      ∧ r' = (r.modifyType target fun t =>
          { t with includes := m :: t.includes.filter (· ≠ m) }).bumpEpoch := by
  unfold includeModule at h
  split at h
  · cases h
  · next module_ =>
    split at h
    · cases h
    · next open_ =>
      rw [Bool.or_eq_true_iff, decide_eq_true_eq, not_or, Bool.not_eq_true] at open_
      cases h
      exact ⟨Decidable.of_not_not module_, open_.1, open_.2, rfl⟩

/-- What every new singleton type keeps is kept on the whole way up. -/
theorem singletonWithin_keeps {P : Registry → Prop}
    (attach : ∀ {r : Registry} (o : ObjectId) (superclass : TypeId), P r →
      P (r.attachSingleton o superclass).2) :
    ∀ (fuel : Nat) {r : Registry} (o : ObjectId), P r → P (singletonWithin fuel r o).2 := by
  intro fuel
  induction fuel with
  | zero => intro r o h; exact h
  | succ fuel ih =>
      intro r o h
      unfold singletonWithin
      split
      · exact h
      · dsimp only
        split
        · exact attach o _ h
        · split
          · exact attach o _ h
          · exact attach o _ h
          · exact attach o _ (ih _ h)

end ObjectModel.Registry
