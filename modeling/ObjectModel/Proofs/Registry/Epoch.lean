/-
What the epoch of a registry counts.

The epoch counts the modules that were mixed in and the methods that were
defined, and nothing else: not what was refused, and not the types, constants
and singleton types that were made, however many (`epoch_run`). So if it is the
same at two points of a run, nothing in between could alter what a type that is
there looks through and finds (`lookups_kept_of_epoch`).
-/
import ObjectModel.Proofs.Registry.Lookup

namespace ObjectModel

/-- Whether an operation mixes in a module or defines a method. A refused mixin
does not. -/
def Operation.relinks (r : Registry) : Operation → Bool
  | .mixIn target m => (r.includeModule target m).1.isOk
  | .defineMethod _ _ _ _ => true
  | _ => false

namespace Registry

variable {r r' : Registry}

/-- How many operations of a run mix in a module or define a method. -/
def relinkings : Registry → List Operation → Nat
  | _, [] => 0
  | r, op :: ops => (op.relinks r).toNat + relinkings (op.apply r) ops

-- =============================================================== one operation

theorem epoch_setConstant (r : Registry) (owner : TypeId) (name : String) (v : Value) :
    (r.setConstant owner name v).epoch = r.epoch := by
  unfold setConstant
  split
  · split
    · rfl
    · rfl
  · rfl

theorem epoch_of_defineAnonymousClass {superclass : TypeId} {shape : Option Shape} {t : TypeId}
    (h : r.defineAnonymousClass superclass shape = (.ok t, r')) : r'.epoch = r.epoch := by
  obtain ⟨-, halloc⟩ := defineAnonymousClass_inv h
  cases halloc
  rfl

theorem epoch_of_defineClassUnder {parent : TypeId} {superclass : Option TypeId}
    {name : String} {shape : Option Shape} {t : TypeId}
    (h : r.defineClassUnder parent superclass name shape = (.ok t, r')) : r'.epoch = r.epoch := by
  rcases defineClassUnder_inv h with ⟨rfl, -⟩ | ⟨s, made, -, -, hmade, rfl⟩
  · rfl
  · -- a type that gets its name moves no epoch
    have hepoch : made.epoch = r.epoch := epoch_of_defineAnonymousClass hmade
    exact hepoch

theorem epoch_of_defineModuleUnder {parent : TypeId} {name : String} {t : TypeId}
    (h : r.defineModuleUnder parent name = (.ok t, r')) : r'.epoch = r.epoch := by
  rcases defineModuleUnder_inv h with ⟨rfl, -⟩ | ⟨made, -, hmade, rfl⟩
  · rfl
  · cases hmade
    rfl

/-- No singleton type on the way up moves the epoch. -/
theorem epoch_singletonWithin (fuel : Nat) (r : Registry) (o : ObjectId) :
    (singletonWithin fuel r o).2.epoch = r.epoch :=
  singletonWithin_keeps (P := fun x => x.epoch = r.epoch) (fun _ _ h => h) fuel o rfl

/-- An operation moves the epoch by one if it relinks, else not at all. -/
theorem epoch_apply (r : Registry) (op : Operation) :
    (op.apply r).epoch = r.epoch + (op.relinks r).toNat := by
  cases op with
  | defineClass parent superclass name shape =>
      exact (looks_defineClassUnder ..).keeps (P := fun x => x.epoch = r.epoch) rfl
        fun h => epoch_of_defineClassUnder h
  | defineAnonymousClass superclass shape =>
      exact (looks_defineAnonymousClass ..).keeps (P := fun x => x.epoch = r.epoch) rfl
        fun h => epoch_of_defineAnonymousClass h
  | defineModule parent name =>
      exact (looks_defineModuleUnder ..).keeps (P := fun x => x.epoch = r.epoch) rfl
        fun h => epoch_of_defineModuleUnder h
  | mixIn target m =>
      unfold Operation.apply Operation.relinks
      dsimp only
      cases h : r.includeModule target m with
      | mk answer r' =>
          cases answer with
          | error e =>
              have hlooks := looks_includeModule r target m
              rw [h] at hlooks
              rw [hlooks.kept rfl]
              rfl
          | ok _ =>
              obtain ⟨-, -, -, rfl⟩ := includeModule_inv h
              rfl
  | setConstant owner name value => exact epoch_setConstant r owner name value
  | defineMethod owner name arity body => rfl
  | makeSingleton o => exact epoch_singletonWithin _ r o
  | defineShape name fields => rfl
  | makeObject cls text => rfl

-- ================================================================= whole runs

/-- The epoch counts mixins and methods. -/
theorem epoch_run (r : Registry) (ops : List Operation) :
    (r.run ops).epoch = r.epoch + r.relinkings ops := by
  induction ops generalizing r with
  | nil => rfl
  | cons op ops ih =>
      show ((op.apply r).run ops).epoch = r.epoch + ((op.relinks r).toNat + _)
      rw [ih, epoch_apply, Nat.add_assoc]

/-- Between two points of a run with the same epoch, the types that are there at
the first one keep their ancestors and the methods that they find. -/
theorem lookups_kept_of_epoch (reachable : r.Reachable) {ops : List Operation}
    (valid : Along Operation.Valid r ops) (epoch : (r.run ops).epoch = r.epoch) {t : TypeId}
    (has : r.Has t) :
    (r.run ops).ancestors t = r.ancestors t
      ∧ ∀ name, (r.run ops).findMethod? t name = r.findMethod? t name := by
  have wf := reachable.wellFormed
  have keeps : Keeps r (r.run ops) := .of_epoch ((evolves_run valid).grows wf) epoch
  exact ⟨wf.ancestors_eq_of_keeps keeps has, wf.findMethod?_eq_of_keeps keeps has⟩

/-- A class that mixes in a module with a method. -/
def greeting : List Operation :=
  [.defineModule Core.object "Greeting", .defineClass Core.object (some Core.object) "Host" none,
    .mixIn ⟨5⟩ ⟨4⟩, .defineMethod ⟨4⟩ "greet" (.exactly 0) (.answer .nil)]

/-- Types, constants, a mixin that is refused and the singleton types of a class
and of its singleton type; then a class without a name gets one. -/
def creations : List Operation :=
  [.defineClass ⟨4⟩ (some ⟨5⟩) "Guest" none, .defineAnonymousClass ⟨5⟩ none,
    .mixIn ⟨4⟩ ⟨4⟩, .makeSingleton ⟨5⟩, .makeSingleton ⟨8⟩,
    .setConstant Core.object "Named" (.object ⟨7⟩)]

/-- The class finds the module's method before and after. -/
theorem lookups_kept_of_creations :
    let r := initial.run greeting
    r.Reachable ∧ Along Operation.Valid r creations ∧ (r.run creations).epoch = r.epoch
      ∧ r.Has ⟨5⟩ ∧ (r.run creations).size = r.size + 8
      ∧ (r.findMethod? ⟨5⟩ "greet").isSome = true
      ∧ (r.run creations).ancestors ⟨5⟩ = r.ancestors ⟨5⟩
      ∧ ∀ name, (r.run creations).findMethod? ⟨5⟩ name = r.findMethod? ⟨5⟩ name := by
  intro r
  have reachable : r.Reachable := evolves_run (by decide +kernel)
  have valid : Along Operation.Valid r creations := by decide +kernel
  have epoch : (r.run creations).epoch = r.epoch := by
    rw [epoch_run]
    decide +kernel
  have has : r.Has ⟨5⟩ := by decide +kernel
  exact ⟨reachable, valid, epoch, has, by decide +kernel, by decide +kernel,
    lookups_kept_of_epoch reachable valid epoch has⟩

end Registry

end ObjectModel
