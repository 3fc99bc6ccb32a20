/-
The registry of classes, modules and heap objects.

Every class and module is a record at a fixed place; the record names its
superclass, the modules mixed into it (most recent first), its constants and
its methods. Every record has a heap object that stands for the type as a
value, and a heap object may carry one singleton type of its own. Both lists
only grow.

Four types come first and close a circle: `Class` is itself an instance of
`Class`, and its superclass chain runs through `Module` and `Object` to
`BasicObject`, the one class without a superclass.

The epoch counts the changes that can alter what a message finds.
-/
import ObjectModel.Bindings
import ObjectModel.Shape
import ObjectModel.Method

namespace ObjectModel

inductive TypeKind where
  | classType
  | moduleType
deriving DecidableEq, Inhabited

def TypeKind.name : TypeKind → String
  | .classType => "Class"
  | .moduleType => "Module"

/-- What a heap object carries behind its header. -/
inductive Payload where
  | plain
  | text (s : String)
  /-- The object stands for a class or module. -/
  | type (t : TypeId)
deriving DecidableEq, Inhabited

/-- A heap object: the class it was made from, for ever, and the singleton
type it was given, if any. -/
structure HeapObject where
  logicalType : TypeId
  singleton : Option TypeId
  shape : Shape
  payload : Payload
deriving DecidableEq, Inhabited

/-- Where looking up messages to the object starts. -/
def HeapObject.metaType (o : HeapObject) : TypeId := o.singleton.getD o.logicalType

/-- A class or module. -/
structure TypeRecord where
  kind : TypeKind
  /-- The qualified name, once the type was bound to a constant. -/
  name : Option String
  /-- The type whose constant gave the name. -/
  lexicalParent : Option TypeId
  superclass : Option TypeId
  /-- Modules mixed in, the most recent one first. -/
  includes : List TypeId
  constants : Bindings Value
  methods : Bindings Method
  shape : Shape
  /-- The heap object that stands for the type. -/
  object : ObjectId
  /-- The object whose singleton type this is. -/
  attached : Option ObjectId
deriving Inhabited

structure Registry where
  types : List TypeRecord
  heap : List HeapObject
  shapes : ShapeTable
  epoch : Nat
deriving Inhabited

/-- The layout of plain objects. -/
def basicShape : Shape := ⟨⟨0⟩, "basic_object", []⟩

/-- The layout of the objects that stand for types. -/
def moduleShape : Shape := ⟨⟨1⟩, "module", []⟩

/-- The table with these two layouts, defined in this order. -/
def ShapeTable.initial : ShapeTable :=
  ((ShapeTable.empty.define "basic_object" []).2.define "module" []).2

namespace Core

abbrev classType : TypeId := ⟨0⟩
abbrev basicObject : TypeId := ⟨1⟩
abbrev object : TypeId := ⟨2⟩
abbrev moduleType : TypeId := ⟨3⟩

end Core

namespace Registry

-- =============================================================== reading

/-- The record of a type; a blank one for a place that is not in use. -/
def record (r : Registry) (t : TypeId) : TypeRecord := r.types.getD t.index default

/-- A heap object; a blank one for a place that is not in use. -/
def cell (r : Registry) (o : ObjectId) : HeapObject := r.heap.getD o.index default

def size (r : Registry) : Nat := r.types.length

/-- All types, in the order of definition. -/
def typeIds (r : Registry) : List TypeId := (List.range r.size).map TypeId.mk

/-- The object that stands for a type. -/
def typeValue (r : Registry) (t : TypeId) : Value := .object (r.record t).object

/-- The type that an object stands for. -/
def denotes? (r : Registry) (o : ObjectId) : Option TypeId :=
  match (r.cell o).payload with
  | .type t => some t
  | _ => none

/-- The type that a value stands for. -/
def typeOf? (r : Registry) : Value → Option TypeId
  | .object o => r.denotes? o
  | _ => none

/-- The text of a string object. -/
def textOf? (r : Registry) : Value → Option String
  | .object o =>
    match (r.cell o).payload with
    | .text s => some s
    | _ => none
  | _ => none

-- =============================================================== writing

def modifyType (r : Registry) (t : TypeId) (change : TypeRecord → TypeRecord) : Registry :=
  { r with types := r.types.modify t.index change }

def modifyObject (r : Registry) (o : ObjectId) (change : HeapObject → HeapObject) : Registry :=
  { r with heap := r.heap.modify o.index change }

def bumpEpoch (r : Registry) : Registry := { r with epoch := r.epoch + 1 }

/-- A new heap object of a type, with the type's layout. -/
def allocObject (r : Registry) (t : TypeId) (payload : Payload) : ObjectId × Registry :=
  (⟨r.heap.length⟩,
    { r with heap := r.heap ++ [⟨t, none, (r.record t).shape, payload⟩] })

/-- A new type without a name, and the object that stands for it. -/
def allocType (r : Registry) (kind : TypeKind) (logicalType : TypeId)
    (superclass : Option TypeId) (shape : Shape) : TypeId × Registry :=
  let id : TypeId := ⟨r.types.length⟩
  let type : TypeRecord :=
    { kind, name := none, lexicalParent := none, superclass, includes := [],
      constants := .empty, methods := .empty, shape, object := ⟨r.heap.length⟩,
      attached := none }
  (id, { r with
    types := r.types ++ [type]
    heap := r.heap ++ [⟨logicalType, none, moduleShape, .type id⟩] })

/-- The name of a constant inside a type: qualified, unless the type has no
name or is `Object`. -/
def qualify (r : Registry) (parent : TypeId) (name : String) : String :=
  match (r.record parent).name with
  | some outer => if parent = Core.object then name else outer ++ "::" ++ name
  | none => name

/-- Binds a constant. -/
def bind (r : Registry) (owner : TypeId) (name : String) (value : Value) : Registry :=
  r.modifyType owner fun t => { t with constants := t.constants.set name value }

/-- Binds a type to a constant; a type without a name takes the constant's. -/
def adopt (r : Registry) (t parent : TypeId) (name : String) : Registry :=
  let value := r.typeValue t
  let qualified := r.qualify parent name
  let r := r.modifyType t fun type =>
    if type.name.isNone then
      { type with name := some qualified, lexicalParent := some parent }
    else type
  r.bind parent name value

-- ============================================================ the first four

/-- Four types without names, `Class` still its own superclass. -/
def placeholders : Registry :=
  let r : Registry := ⟨[], [], .initial, 0⟩
  let r := (r.allocType .classType Core.classType (some Core.classType) moduleShape).2
  let r := (r.allocType .classType Core.classType none basicShape).2
  let r := (r.allocType .classType Core.classType (some Core.basicObject) basicShape).2
  (r.allocType .classType Core.classType (some Core.object) moduleShape).2

/-- The registry that all others grow from: the circle of the first four
types is closed, and they are constants of `Object`. -/
def initial : Registry :=
  let r := placeholders.modifyType Core.classType fun t =>
    { t with superclass := some Core.moduleType }
  let r := r.adopt Core.classType Core.object "Class"
  let r := r.adopt Core.basicObject Core.object "BasicObject"
  let r := r.adopt Core.object Core.object "Object"
  r.adopt Core.moduleType Core.object "Module"

end Registry

end ObjectModel
