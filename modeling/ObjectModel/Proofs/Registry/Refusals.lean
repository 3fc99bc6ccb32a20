/-
What a registry refuses, and why.

Four operations look before they do anything: the definitions of classes, with a
name or without, the definition of a module, and the mixin (`Looks`). `Operation.Refused`
says when which refusal is due, in terms of what is bound, of kinds and of
ancestors, and a call fails exactly with the refusal that is due
(`refusal?_eq_some_iff`); all else succeeds. What was refused changed nothing,
and neither did the reopening of what was there.

A mixin is refused if the target is an ancestor of the module. The guard does not
look at ancestors: it searches what is mixed into the module, and keeps no list
of what it has seen. On a graph without circles the two are the same
(`guard_iff_mem_ancestors`), and nothing is refused but what would close one: the
target is an ancestor of the module exactly if the new link would put some type
inside itself (`mem_ancestors_iff_closesCircle`).
-/
import ObjectModel.Proofs.Registry.AncestorOrder

namespace ObjectModel

namespace Registry

variable (r : Registry)

/-- A constant of a type's own table stands for a type of a kind. -/
def BindsType (owner : TypeId) (name : String) (kind : TypeKind) (t : TypeId) : Prop :=
  ∃ v, r.constant? owner name = some v ∧ r.typeOf? v = some t ∧ (r.record t).kind = kind

/-- A constant of a type's own table stands for something else than a type of a
kind. -/
def BindsOther (owner : TypeId) (name : String) (kind : TypeKind) : Prop :=
  ∃ v, r.constant? owner name = some v ∧ ∀ t, r.typeOf? v = some t → (r.record t).kind ≠ kind

/-- With one more include some type would be inside itself. -/
def ClosesCircle (target m : TypeId) : Prop :=
  ∃ t, Relation.TransGen (fun a b => r.Includes a b ∨ (a = target ∧ b = m)) t t

end Registry

/-- Why a call was refused, if it was. -/
def refusalOf? {α : Type} : Except RegistryError α × Registry → Option RegistryError
  | (.ok _, _) => none
  | (.error e, _) => some e

theorem refusalOf?_eq_some_iff {α : Type} {made : Except RegistryError α × Registry}
    {e : RegistryError} : refusalOf? made = some e ↔ made.1 = .error e := by
  obtain ⟨answer, r⟩ := made
  cases answer with
  | ok x => simp [refusalOf?]
  | error e' => simp [refusalOf?]

theorem TypeKind.ne_classType_iff {kind : TypeKind} : kind ≠ .classType ↔ kind = .moduleType := by
  cases kind <;> decide

theorem TypeKind.ne_moduleType_iff {kind : TypeKind} : kind ≠ .moduleType ↔ kind = .classType := by
  cases kind <;> decide

namespace Operation

/-- The error that an operation fails with, if it fails. -/
def refusal? (r : Registry) : Operation → Option RegistryError
  | .defineClass parent superclass name shape =>
    refusalOf? (r.defineClassUnder parent superclass name shape)
  | .defineAnonymousClass superclass shape => refusalOf? (r.defineAnonymousClass superclass shape)
  | .defineModule parent name => refusalOf? (r.defineModuleUnder parent name)
  | .mixIn target m => refusalOf? (r.includeModule target m)
  | _ => none

/-- When a refusal is due, and which. -/
inductive Refused (r : Registry) : Operation → RegistryError → Prop where
  /-- The name stands for something that is no class. -/
  | notAClass {parent : TypeId} {superclass : Option TypeId} {name : String}
      {shape : Option Shape} : r.BindsOther parent name .classType →
        Refused r (.defineClass parent superclass name shape) (.notAClass name)
  /-- The name stands for a class with another superclass than the requested one. -/
  | superclassMismatch {parent s t : TypeId} {name : String} {shape : Option Shape} :
      r.BindsType parent name .classType t → (r.record t).superclass ≠ some s →
        Refused r (.defineClass parent (some s) name shape)
          (.superclassMismatch (r.displayName t))
  /-- The name is free, and no superclass is given. -/
  | missingSuperclass {parent : TypeId} {name : String} {shape : Option Shape} :
      r.constant? parent name = none →
        Refused r (.defineClass parent none name shape) (.missingSuperclass name)
  /-- The name is free, and the superclass is a module. -/
  | superclassNotClass {parent s : TypeId} {name : String} {shape : Option Shape} :
      r.constant? parent name = none → (r.record s).kind = .moduleType →
        Refused r (.defineClass parent (some s) name shape)
          (.superclassNotClass (r.displayName s))
  | anonymousBelowModule {s : TypeId} {shape : Option Shape} :
      (r.record s).kind = .moduleType →
        Refused r (.defineAnonymousClass s shape) (.superclassNotClass (r.displayName s))
  /-- The name stands for something that is no module. -/
  | notAModule {parent : TypeId} {name : String} : r.BindsOther parent name .moduleType →
      Refused r (.defineModule parent name) (.notAModule name)
  | includeNotModule {target m : TypeId} : (r.record m).kind = .classType →
      Refused r (.mixIn target m) (.includeNotModule (r.displayName m))
  /-- The target is an ancestor of the module. -/
  | cyclicInclude {target m : TypeId} : (r.record m).kind = .moduleType →
      target ∈ r.ancestors m → Refused r (.mixIn target m) (.cyclicInclude (r.displayName m))

end Operation

namespace Registry

/-- A registry refuses what it has to and nothing else, and neither a refusal
nor a reopening changes it. -/
structure ExactRefusals (r : Registry) : Prop where
  refusal?_eq_some_iff : ∀ (op : Operation) (e : RegistryError),
    op.refusal? r = some e ↔ op.Refused r e
  /-- A mixin is refused if its link would close a circle. -/
  mem_ancestors_iff : ∀ {target m : TypeId}, (r.record m).kind = .moduleType →
    (target ∈ r.ancestors m ↔ r.ClosesCircle target m)
  refused : ∀ {op : Operation} {e : RegistryError}, op.refusal? r = some e → op.apply r = r
  /-- A class that is there is the answer, unless the call is refused. -/
  reopenedClass : ∀ {parent t : TypeId} {superclass : Option TypeId} {name : String}
    {shape : Option Shape}, r.BindsType parent name .classType t →
      (Operation.defineClass parent superclass name shape).refusal? r = none →
        r.defineClassUnder parent superclass name shape = (.ok t, r)
  reopenedModule : ∀ {parent t : TypeId} {name : String}, r.BindsType parent name .moduleType t →
    r.defineModuleUnder parent name = (.ok t, r)

variable {r : Registry} {e : RegistryError}

-- ============================================================= bound constants

theorem typeOfKind?_eq_some_iff {v : Value} {kind : TypeKind} {t : TypeId} :
    r.typeOfKind? v kind = some t ↔ r.typeOf? v = some t ∧ (r.record t).kind = kind := by
  unfold typeOfKind?
  cases r.typeOf? v with
  | none => simp
  | some u =>
      by_cases hu : (r.record u).kind = kind
      · simp only [if_pos hu, Option.some_inj]
        exact ⟨fun h => ⟨h, h ▸ hu⟩, fun h => h.1⟩
      · simp only [if_neg hu, Option.some_inj, reduceCtorEq, false_iff]
        rintro ⟨rfl, h⟩
        exact hu h

theorem typeOfKind?_eq_none_iff {v : Value} {kind : TypeKind} :
    r.typeOfKind? v kind = none ↔ ∀ t, r.typeOf? v = some t → (r.record t).kind ≠ kind := by
  rw [Option.eq_none_iff_forall_not_mem]
  refine forall_congr' fun t => ?_
  rw [Option.mem_def, typeOfKind?_eq_some_iff, not_and]

-- ================================================================= definitions

theorem defineAnonymousClass_eq_error_iff {superclass : TypeId} {shape : Option Shape} :
    (r.defineAnonymousClass superclass shape).1 = .error e
      ↔ (Operation.defineAnonymousClass superclass shape).Refused r e := by
  unfold defineAnonymousClass
  constructor
  · intro h
    split at h
    · cases h
    · next module_ =>
      cases h
      exact .anonymousBelowModule (TypeKind.ne_classType_iff.mp module_)
  · rintro ⟨⟩
    next module_ => rw [module_, if_neg (by decide)]

/-- A class is refused exactly when it has to be. -/
theorem defineClassUnder_eq_error_iff {parent : TypeId} {superclass : Option TypeId}
    {name : String} {shape : Option Shape} :
    (r.defineClassUnder parent superclass name shape).1 = .error e
      ↔ (Operation.defineClass parent superclass name shape).Refused r e := by
  unfold defineClassUnder
  constructor
  · intro h
    split at h
    · next v bound =>
      split at h
      · next other =>
        cases h
        exact .notAClass ⟨v, bound, typeOfKind?_eq_none_iff.mp other⟩
      · next t class_ =>
        split at h
        · next mismatch =>
          cases h
          rw [Bool.and_eq_true, decide_eq_true_eq] at mismatch
          obtain ⟨s, rfl⟩ := Option.isSome_iff_exists.mp mismatch.1
          exact .superclassMismatch ⟨v, bound, typeOfKind?_eq_some_iff.mp class_⟩ mismatch.2
        · cases h
    · next free =>
      cases superclass with
      | none =>
          cases h
          exact .missingSuperclass free
      | some s =>
          dsimp only at h
          split at h
          · next refused =>
            cases h
            cases defineAnonymousClass_eq_error_iff.mp (congrArg Prod.fst refused) with
            | anonymousBelowModule module_ => exact .superclassNotClass free module_
          · cases h
  · intro h
    cases h with
    | notAClass other =>
        obtain ⟨v, bound, other⟩ := other
        rw [bound]
        dsimp only
        rw [typeOfKind?_eq_none_iff.mpr other]
    | superclassMismatch class_ mismatch =>
        obtain ⟨v, bound, class_⟩ := class_
        rw [bound]
        dsimp only
        rw [typeOfKind?_eq_some_iff.mpr class_]
        dsimp only
        rw [if_pos (by simpa using mismatch)]
    | missingSuperclass free => rw [free]
    | superclassNotClass free module_ =>
        rw [free]
        dsimp only
        have refused : Operation.Refused r (.defineAnonymousClass _ shape) _ :=
          .anonymousBelowModule module_
        have hrefused := defineAnonymousClass_eq_error_iff.mpr refused
        generalize r.defineAnonymousClass _ shape = made at hrefused
        obtain ⟨answer, r'⟩ := made
        cases hrefused
        rfl

theorem defineModuleUnder_eq_error_iff {parent : TypeId} {name : String} :
    (r.defineModuleUnder parent name).1 = .error e
      ↔ (Operation.defineModule parent name).Refused r e := by
  unfold defineModuleUnder
  constructor
  · intro h
    split at h
    · next v bound =>
      split at h
      · cases h
      · next other =>
        cases h
        exact .notAModule ⟨v, bound, typeOfKind?_eq_none_iff.mp other⟩
    · cases h
  · rintro ⟨⟩
    next other =>
      obtain ⟨v, bound, other⟩ := other
      rw [bound]
      dsimp only
      rw [typeOfKind?_eq_none_iff.mpr other]

/-- What is there is reopened, and the registry stays. -/
theorem defineClassUnder_of_bindsType {parent t : TypeId} {superclass : Option TypeId}
    {name : String} {shape : Option Shape} (bound : r.BindsType parent name .classType t)
    (allowed : (Operation.defineClass parent superclass name shape).refusal? r = none) :
    r.defineClassUnder parent superclass name shape = (.ok t, r) := by
  obtain ⟨v, bound, class_⟩ := bound
  unfold Operation.refusal? at allowed
  dsimp only at allowed
  unfold defineClassUnder at allowed ⊢
  rw [bound] at allowed ⊢
  dsimp only at allowed ⊢
  rw [typeOfKind?_eq_some_iff.mpr class_] at allowed ⊢
  dsimp only at allowed ⊢
  split
  · next mismatch =>
    rw [if_pos mismatch] at allowed
    cases allowed
  · rfl

theorem defineModuleUnder_of_bindsType {parent t : TypeId} {name : String}
    (bound : r.BindsType parent name .moduleType t) :
    r.defineModuleUnder parent name = (.ok t, r) := by
  obtain ⟨v, bound, module_⟩ := bound
  unfold defineModuleUnder
  rw [bound]
  dsimp only
  rw [typeOfKind?_eq_some_iff.mpr module_]

-- ===================================================================== mixins

section includeModule

variable (wf : r.WellFormed) {target m : TypeId}

include wf

/-- The ancestors of a module are what is mixed in. -/
theorem mem_ancestors_of_module (module_ : (r.record m).kind = .moduleType) {a : TypeId} :
    a ∈ r.ancestors m ↔ r.Reaches m a := by
  rw [wf.mem_ancestors_iff_links (has_of_module module_), wf.links_of_module module_]

/-- The guard of a mixin finds out whether the target is above the module. -/
theorem guard_iff_mem_ancestors (module_ : (r.record m).kind = .moduleType) :
    (decide (target = m) || r.mixesIn r.size m target) = true ↔ target ∈ r.ancestors m :=
  (guard_iff wf.nested wf.size_pos).trans (mem_ancestors_of_module wf module_).symm

/-- A mixin is refused if it would put some type inside itself. -/
theorem mem_ancestors_iff_closesCircle (module_ : (r.record m).kind = .moduleType) :
    target ∈ r.ancestors m ↔ r.ClosesCircle target m := by
  rw [mem_ancestors_of_module wf module_]
  constructor
  · intro way
    refine ⟨m, Relation.TransGen.tail' ?_ (.inr ⟨rfl, rfl⟩)⟩
    exact Relation.ReflTransGen.mono (fun _ _ => Or.inl) _ _ way
  · rintro ⟨t, circle⟩
    rcases transGen_of_link (fun link => link) circle with old | ⟨hto, hfrom⟩
    · exact absurd old (wf.includes_acyclic t)
    · exact hfrom.trans hto

theorem includeModule_eq_error_iff :
    (r.includeModule target m).1 = .error e ↔ (Operation.mixIn target m).Refused r e := by
  unfold includeModule
  constructor
  · intro h
    split at h
    · next other =>
      cases h
      exact .includeNotModule (TypeKind.ne_moduleType_iff.mp other)
    · next module_ =>
      have module_ := Decidable.of_not_not module_
      split at h
      · next closes =>
        cases h
        exact .cyclicInclude module_ ((guard_iff_mem_ancestors wf module_).mp closes)
      · cases h
  · intro h
    cases h with
    | includeNotModule class_ => rw [if_pos (by rw [class_]; decide)]
    | cyclicInclude module_ above =>
        rw [if_neg (not_not_intro module_),
          if_pos ((guard_iff_mem_ancestors wf module_).mpr above)]

end includeModule

-- ================================================================= the result

/-- What was refused left the registry as it was. -/
theorem apply_eq_of_refusal? {op : Operation} (h : op.refusal? r = some e) : op.apply r = r := by
  cases op with
  | defineClass => exact (looks_defineClassUnder ..).kept (refusalOf?_eq_some_iff.mp h)
  | defineAnonymousClass => exact (looks_defineAnonymousClass ..).kept (refusalOf?_eq_some_iff.mp h)
  | defineModule => exact (looks_defineModuleUnder ..).kept (refusalOf?_eq_some_iff.mp h)
  | mixIn => exact (looks_includeModule ..).kept (refusalOf?_eq_some_iff.mp h)
  | setConstant | defineMethod | makeSingleton | defineShape | makeObject => cases h

/-- Every reachable registry refuses exactly what it has to. -/
theorem exactRefusals_of_reachable (reachable : r.Reachable) : r.ExactRefusals := by
  have wf := reachable.wellFormed
  refine
    { refusal?_eq_some_iff := fun op e => ?_
      mem_ancestors_iff := mem_ancestors_iff_closesCircle wf
      refused := apply_eq_of_refusal?
      reopenedClass := defineClassUnder_of_bindsType
      reopenedModule := defineModuleUnder_of_bindsType }
  cases op with
  | defineClass => exact refusalOf?_eq_some_iff.trans defineClassUnder_eq_error_iff
  | defineAnonymousClass => exact refusalOf?_eq_some_iff.trans defineAnonymousClass_eq_error_iff
  | defineModule => exact refusalOf?_eq_some_iff.trans defineModuleUnder_eq_error_iff
  | mixIn => exact refusalOf?_eq_some_iff.trans (includeModule_eq_error_iff wf)
  | setConstant | defineMethod | makeSingleton | defineShape | makeObject =>
      refine ⟨fun h => ?_, fun h => ?_⟩
      · cases h
      · cases h

/-- Swimming is mixed into what it mixes in, which is refused; so is a duck that is
no bird. -/
theorem exactRefusals_of_waterfowl :
    let r := initial.run waterfowl
    r.Reachable
      ∧ (Operation.mixIn ⟨4⟩ ⟨5⟩).refusal? r = some (.cyclicInclude "Swimming")
      ∧ (Operation.defineClass Core.object (some Core.object) "Duck" none).refusal? r
          = some (.superclassMismatch "Duck")
      ∧ r.ExactRefusals :=
  ⟨reachable_waterfowl, by decide +kernel, by decide +kernel,
    exactRefusals_of_reachable reachable_waterfowl⟩

end Registry

end ObjectModel
