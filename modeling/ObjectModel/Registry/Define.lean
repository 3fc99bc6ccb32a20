/-
Definitions.

What may be defined, and what is refused. Every call answers beside the
registry that it leaves, a refused one too; every message says which name was
at fault. Reopening a class or module by its name answers the existing one.
-/
import ObjectModel.Registry.Ancestors
import ObjectModel.Registry.Name

namespace ObjectModel

/-- Why a definition is refused. -/
inductive RegistryError where
  | missingSuperclass (name : String)
  | superclassNotClass (name : String)
  | superclassMismatch (name : String)
  | notAClass (name : String)
  | notAModule (name : String)
  | includeNotModule (name : String)
  | cyclicInclude (name : String)
  | malformedTypeGraph (reason : String)
deriving DecidableEq

def RegistryError.message : RegistryError → String
  | .missingSuperclass name => "class " ++ name ++ " defined without a superclass"
  | .superclassNotClass name => "superclass must be a Class (" ++ name ++ " given)"
  | .superclassMismatch name => "superclass mismatch for class " ++ name
  | .notAClass name => name ++ " is not a class"
  | .notAModule name => name ++ " is not a module"
  | .includeNotModule name => "wrong argument type " ++ name ++ " (expected Module)"
  | .cyclicInclude name => "cyclic include detected (" ++ name ++ ")"
  | .malformedTypeGraph reason => "malformed type graph: " ++ reason

/-- The kind of a refusal, by name. -/
def RegistryError.kind : RegistryError → String
  | .missingSuperclass _ => "MissingSuperclass"
  | .superclassNotClass _ => "SuperclassNotClass"
  | .superclassMismatch _ => "SuperclassMismatch"
  | .notAClass _ => "NotAClass"
  | .notAModule _ => "NotAModule"
  | .includeNotModule _ => "IncludeNotModule"
  | .cyclicInclude _ => "CyclicInclude"
  | .malformedTypeGraph _ => "MalformedTypeGraph"

/-- The refusal of a kind about a name. -/
def RegistryError.ofKind? (kind name : String) : Option RegistryError :=
  [.missingSuperclass name, .superclassNotClass name, .superclassMismatch name,
    .notAClass name, .notAModule name, .includeNotModule name, .cyclicInclude name,
    .malformedTypeGraph name].find? (·.kind == kind)

namespace Registry

variable (r : Registry)

/-- The type of a kind that a constant's value stands for. -/
def typeOfKind? (value : Value) (kind : TypeKind) : Option TypeId :=
  match r.typeOf? value with
  | some t => if (r.record t).kind = kind then some t else none
  | none => none

-- ========================================================== types

/-- A class without a name, with its superclass's layout unless one is given. -/
def defineAnonymousClass (superclass : TypeId) (shape : Option Shape) :
    Except RegistryError TypeId × Registry :=
  if (r.record superclass).kind = .classType then
    let (t, r) := r.allocType .classType Core.classType (some superclass)
      (shape.getD (r.record superclass).shape)
    (.ok t, r)
  else (.error (.superclassNotClass (r.displayName superclass)), r)

/-- Defines `parent::name`, or reopens it. A new class has to name its
superclass; a reopened one may repeat it. -/
def defineClassUnder (parent : TypeId) (superclass : Option TypeId) (name : String)
    (shape : Option Shape) : Except RegistryError TypeId × Registry :=
  match r.constant? parent name with
  | some bound =>
    match r.typeOfKind? bound .classType with
    | none => (.error (.notAClass name), r)
    | some existing =>
      if superclass.isSome && (r.record existing).superclass ≠ superclass then
        (.error (.superclassMismatch (r.displayName existing)), r)
      else (.ok existing, r)
  | none =>
    match superclass with
    | none => (.error (.missingSuperclass name), r)
    | some superclass =>
      match r.defineAnonymousClass superclass shape with
      | (.error e, r) => (.error e, r)
      | (.ok t, r) => (.ok t, r.adopt t parent name)

/-- Defines a class as a constant of `Object`. -/
def defineClass (superclass : Option TypeId) (name : String) (shape : Option Shape) :
    Except RegistryError TypeId × Registry :=
  r.defineClassUnder Core.object superclass name shape

/-- Defines `parent::name`, or reopens it. -/
def defineModuleUnder (parent : TypeId) (name : String) :
    Except RegistryError TypeId × Registry :=
  match r.constant? parent name with
  | some bound =>
    match r.typeOfKind? bound .moduleType with
    | some existing => (.ok existing, r)
    | none => (.error (.notAModule name), r)
  | none =>
    let (t, r) := r.allocType .moduleType Core.moduleType none moduleShape
    (.ok t, r.adopt t parent name)

/-- Defines a module as a constant of `Object`. -/
def defineModule (name : String) : Except RegistryError TypeId × Registry :=
  r.defineModuleUnder Core.object name

-- ===================================================== mixing in and binding

/-- Mixes a module into a type. A module that is mixed in already moves to
the front. -/
def includeModule (target m : TypeId) : Except RegistryError Unit × Registry :=
  if (r.record m).kind ≠ .moduleType then
    (.error (.includeNotModule (r.displayName m)), r)
  else if target = m || r.mixesIn r.size m target then
    (.error (.cyclicInclude (r.displayName m)), r)
  else
    (.ok (), (r.modifyType target fun t =>
      { t with includes := m :: t.includes.filter (· ≠ m) }).bumpEpoch)

/-- Binds a constant. A type without a name that is no singleton takes the
constant's name. -/
def setConstant (owner : TypeId) (name : String) (value : Value) : Registry :=
  match r.typeOf? value with
  | some t =>
    if (r.record t).name.isNone && (r.record t).attached.isNone then r.adopt t owner name
    else r.bind owner name value
  | none => r.bind owner name value

/-- Puts a method into a type's table. -/
def defineMethod (owner : TypeId) (name : String) (arity : Arity) (body : Body) : Registry :=
  (r.modifyType owner fun t =>
    { t with methods := t.methods.set name ⟨name, owner, arity, body⟩ }).bumpEpoch

-- ============================================================ singletons

/-- A new singleton type for an object, below a superclass. -/
def attachSingleton (o : ObjectId) (superclass : TypeId) : TypeId × Registry :=
  let (t, r) := r.allocType .classType Core.classType (some superclass)
    (r.record superclass).shape
  let r := r.modifyType t fun type => { type with attached := some o }
  (t, r.modifyObject o fun object => { object with singleton := some t })

/-- The singleton type of an object, made now if there is none, through at
most `fuel` superclasses. The singleton of a class inherits from the
singleton of its superclass, that of a module from `Module`, and that of any
other object from the object's class. -/
def singletonWithin : Nat → Registry → ObjectId → TypeId × Registry
  | 0, r, o => ((r.cell o).logicalType, r)
  | fuel + 1, r, o =>
    match (r.cell o).singleton with
    | some t => (t, r)
    | none =>
      let (superclass, r) :=
        match r.denotes? o with
        | none => ((r.cell o).logicalType, r)
        | some t =>
          match (r.record t).kind, (r.record t).superclass with
          | .moduleType, _ => (Core.moduleType, r)
          | .classType, none => (Core.classType, r)
          | .classType, some parent => singletonWithin fuel r (r.record parent).object
      r.attachSingleton o superclass

/-- The singleton type of an object. No chain of superclasses is longer than
the registry, so the bound is never met. -/
def singletonOf (o : ObjectId) : TypeId × Registry :=
  singletonWithin (r.size + 1) r o

-- ============================================================== checking

/-- The last class of a superclass chain, or nothing if the chain is longer
than `fuel`. -/
def chainEnd? : Nat → TypeId → Option TypeId → Option TypeId
  | _, last, none => some last
  | 0, _, some _ => none
  | fuel + 1, _, some next => chainEnd? fuel next (r.record next).superclass

/-- The first fault of a type's superclass chain. -/
def chainFault? (t : TypeId) : Option String :=
  match (r.record t).kind with
  | .moduleType => none
  | .classType =>
    match r.chainEnd? r.size t (r.record t).superclass with
    | none => some ("superclass cycle through " ++ r.displayName t)
    | some last =>
      if last = Core.basicObject then none
      else some (r.displayName t ++ " does not descend from BasicObject")

/-- Checks that the first circle is closed and that every class descends from
`BasicObject`. -/
def verify : Except RegistryError Unit :=
  if (r.record Core.classType).superclass ≠ some Core.moduleType then
    .error (.malformedTypeGraph "metatype is not a subclass of Module")
  else if (r.record Core.basicObject).superclass.isSome then
    .error (.malformedTypeGraph "universal root has a superclass")
  else
    match r.typeIds.findSome? r.chainFault? with
    | some reason => .error (.malformedTypeGraph reason)
    | none => .ok ()

end Registry

end ObjectModel
