/-
Operations on a registry, as data.

An operation is one call that may change the registry: a definition, a mixin,
a constant, a method, a request for a singleton type, a new layout or a new
object. An operation is valid for a registry if it speaks of types and objects
that are there. A new object may be made from any type: nothing asks for a class.

A registry evolves by valid operations, in any number and order. The reachable
registries are those that the initial one evolves to. Where it matters which
operations were made, and when, a run is a list of them.
-/
import ObjectModel.Registry.Define
import ObjectModel.Run

namespace ObjectModel

/-- What a new object carries: a text, or nothing. -/
def Payload.ofText? : Option String → Payload
  | none => .plain
  | some content => .text content

inductive Operation where
  | defineClass (parent : TypeId) (superclass : Option TypeId) (name : String)
      (shape : Option Shape)
  | defineAnonymousClass (superclass : TypeId) (shape : Option Shape)
  | defineModule (parent : TypeId) (name : String)
  | mixIn (target m : TypeId)
  | setConstant (owner : TypeId) (name : String) (value : Value)
  | defineMethod (owner : TypeId) (name : String) (arity : Arity) (body : Body)
  | makeSingleton (o : ObjectId)
  | defineShape (name : String) (fields : List String)
  | makeObject (cls : TypeId) (text : Option String)

namespace Registry

variable (r : Registry)

/-- The registry has this type. -/
def Has (t : TypeId) : Prop := t.index < r.size

/-- The heap has this object. -/
def Holds (o : ObjectId) : Prop := o.index < r.heap.length

instance (t : TypeId) : Decidable (r.Has t) := inferInstanceAs (Decidable (_ < _))

instance (o : ObjectId) : Decidable (r.Holds o) := inferInstanceAs (Decidable (_ < _))

/-- A value that is no heap object, or an object of this heap. -/
def HoldsValue (v : Value) : Prop := ∀ o ∈ v.asObject?, r.Holds o

instance (v : Value) : Decidable (r.HoldsValue v) :=
  inferInstanceAs (Decidable (∀ o ∈ v.asObject?, r.Holds o))

end Registry

namespace Operation

/-- The registry after an operation. -/
def apply (r : Registry) : Operation → Registry
  | .defineClass parent superclass name shape =>
    (r.defineClassUnder parent superclass name shape).2
  | .defineAnonymousClass superclass shape => (r.defineAnonymousClass superclass shape).2
  | .defineModule parent name => (r.defineModuleUnder parent name).2
  | .mixIn target m => (r.includeModule target m).2
  | .setConstant owner name value => r.setConstant owner name value
  | .defineMethod owner name arity body => r.defineMethod owner name arity body
  | .makeSingleton o => (r.singletonOf o).2
  | .defineShape name fields => { r with shapes := (r.shapes.define name fields).2 }
  | .makeObject cls text => (r.allocObject cls (.ofText? text)).2

/-- The operation is about types and objects of the registry. -/
def Valid (r : Registry) : Operation → Prop
  | .defineClass parent superclass _ _ => r.Has parent ∧ ∀ s ∈ superclass, r.Has s
  | .defineAnonymousClass superclass _ => r.Has superclass
  | .defineModule parent _ => r.Has parent
  | .mixIn target m => r.Has target ∧ r.Has m
  | .setConstant owner _ value => r.Has owner ∧ r.HoldsValue value
  | .defineMethod owner _ _ _ => r.Has owner
  | .makeSingleton o => r.Holds o
  | .defineShape _ _ => True
  | .makeObject cls _ => r.Has cls

instance (r : Registry) (op : Operation) : Decidable (op.Valid r) :=
  match op with
  | .defineClass _ _ _ _ | .mixIn _ _ | .setConstant _ _ _ => inferInstanceAs (Decidable (_ ∧ _))
  | .defineAnonymousClass t _ | .defineModule t _ | .defineMethod t _ _ _ | .makeObject t _ =>
    inferInstanceAs (Decidable (r.Has t))
  | .makeSingleton o => inferInstanceAs (Decidable (r.Holds o))
  | .defineShape _ _ => .isTrue trivial

end Operation

namespace Registry

/-- One registry becomes another by valid operations. -/
inductive Evolves : Registry → Registry → Prop where
  | refl (r : Registry) : Evolves r r
  | step {r r' : Registry} (op : Operation) :
      Evolves r r' → op.Valid r' → Evolves r (op.apply r')

/-- A registry that valid operations lead to from the very first one. -/
def Reachable (r : Registry) : Prop := Evolves initial r

theorem Evolves.single {r : Registry} (op : Operation) (valid : op.Valid r) :
    Evolves r (op.apply r) :=
  .step op (.refl r) valid

theorem Evolves.trans {a b c : Registry} (hab : Evolves a b) (hbc : Evolves b c) :
    Evolves a c := by
  induction hbc with
  | refl => exact hab
  | step op _ valid ih => exact .step op ih valid

namespace Evolves

variable {r r' : Registry}

/-- A class that was defined was defined by a valid operation. -/
theorem of_defineClassUnder {parent superclass : TypeId} {name : String}
    {shape : Option Shape} {t : TypeId} (has : r.Has parent) (hasSuper : r.Has superclass)
    (h : r.defineClassUnder parent (some superclass) name shape = (.ok t, r')) :
    Evolves r r' := by
  have hstep := single (r := r) (.defineClass parent (some superclass) name shape)
    ⟨has, by intro s hs; cases hs; exact hasSuper⟩
  simp only [Operation.apply, h] at hstep
  exact hstep

theorem of_defineModuleUnder {parent : TypeId} {name : String} {t : TypeId}
    (has : r.Has parent) (h : r.defineModuleUnder parent name = (.ok t, r')) :
    Evolves r r' := by
  have hstep := single (r := r) (.defineModule parent name) has
  simp only [Operation.apply, h] at hstep
  exact hstep

theorem of_includeModule {target m : TypeId} (has : r.Has target) (hasModule : r.Has m)
    (h : r.includeModule target m = (.ok (), r')) : Evolves r r' := by
  have hstep := single (r := r) (.mixIn target m) ⟨has, hasModule⟩
  simp only [Operation.apply, h] at hstep
  exact hstep

end Evolves

-- ==================================================================== runs

/-- The registry after some operations. -/
def run (r : Registry) (ops : List Operation) : Registry :=
  ops.foldl (fun r op => op.apply r) r

/-- Every operation is allowed in the registry that it finds. -/
def Along (allowed : Registry → Operation → Prop) : Registry → List Operation → Prop :=
  ObjectModel.Along (fun r op => op.apply r) allowed

instance (allowed : Registry → Operation → Prop) [∀ r op, Decidable (allowed r op)]
    (r : Registry) (ops : List Operation) : Decidable (Along allowed r ops) :=
  inferInstanceAs (Decidable (ObjectModel.Along _ _ r ops))

/-- A run of valid operations is one way to evolve. -/
theorem evolves_run {r : Registry} {ops : List Operation} (valid : Along Operation.Valid r ops) :
    Evolves r (r.run ops) := by
  induction ops generalizing r with
  | nil => exact .refl r
  | cons op ops ih => exact (Evolves.single op valid.1).trans (ih valid.2)

end Registry

end ObjectModel
