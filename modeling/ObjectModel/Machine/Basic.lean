/-
A running machine.

One record holds all that a program can see: the registry of types and heap
objects, the interned symbols, the global variables, the foreign objects it
has met with the messages they were sent, the error numbers, the patches, and
the state of its life. Everything a program does is a function from machines
to machines.
-/
import ObjectModel.Raise
import ObjectModel.Errno
import ObjectModel.Globals
import ObjectModel.Files.Patches
import ObjectModel.Machine.Options
import ObjectModel.Machine.Lifecycle
import ObjectModel.Double.Text
import ObjectModel.Text.Quoted

namespace ObjectModel

/-- What the host of a machine keeps for the hooks of globals, by name. -/
abbrev HostState := Bindings Value

/-- The storages that hold a machine's flags once its library is loaded. -/
structure FlagReaders where
  loadPath : StorageId
  debug : StorageId
  verbose : StorageId
deriving DecidableEq

structure Machine where
  options : Options
  coreLoadPath : String
  symbols : SymbolTable
  registry : Registry
  globals : GlobalTable HostState
  foreigners : List ForeignObject
  /-- The messages delivered to foreign objects, the oldest first. -/
  delivered : List (ForeignId × Message)
  errno : ErrnoTable
  patches : PatchFiles
  lifecycle : LifecycleState
  /-- The receiver of code at top level. -/
  mainObject : ObjectId
  /-- What stands for an argument that was not given. -/
  undefinedObject : ObjectId
  flags : Option FlagReaders
deriving Inhabited

/-- What a message answers, or the exception that it ends in. -/
abbrev Outcome := Except Raise Value

namespace Machine

variable (m : Machine)

-- ================================================================= types

def foreigner (f : ForeignId) : ForeignObject := m.foreigners.getD f.index default

/-- The type of an immediate value, or of a reference without a header. -/
def kindType (kind : ValueKind) (foreign : TypeId) : TypeId :=
  match kind with
  | .nil => Core.nilClass
  | .true => Core.trueClass
  | .false => Core.falseClass
  | .fixnum | .bignum => Core.integer
  | .float => Core.float
  | .symbol => Core.symbol
  | .foreign => foreign
  | .object => Core.basicObject

/-- The type that a program sees as the value's class. -/
def logicalType : Value → TypeId
  | .object o => (m.registry.cell o).logicalType
  | v => kindType v.kind Core.foreignObject

/-- The type where looking up messages to the value starts. -/
def metaType : Value → TypeId
  | .object o => (m.registry.cell o).metaType
  | v => kindType v.kind Core.foreign

/-- The name of the value's class. -/
def className (v : Value) : String := m.registry.displayName (m.logicalType v)

-- ================================================================== text

/-- A value as messages show it. -/
def inspect : Value → String
  | .nil => "nil"
  | .bool b => if b then "true" else "false"
  | .fixnum n => toString n.val
  | .bignum b => b.toText
  | .float x => x.inspect
  | .symbol s =>
    match m.symbols.name? s with
    | some name => ":" ++ name
    | none => ":<unknown " ++ toString s.index ++ ">"
  | .object o =>
    match (m.registry.cell o).payload with
    | .text s => Text.Quoted.quote s
    | .type t => m.registry.displayName t
    | .plain =>
      if o = m.mainObject then "main"
      else "#<" ++ m.registry.displayName (m.registry.cell o).logicalType ++ ">"
  | .foreign _ => "#<" ++ m.registry.displayName Core.foreignObject ++ ">"

/-- The text of a symbol or a string. -/
def text? : Value → Option String
  | .symbol s => m.symbols.name? s
  | v => m.registry.textOf? v

/-- The text of a symbol or a string that names a method or a member. -/
def nameOf (v : Value) : Except Raise String :=
  match m.text? v with
  | some text => .ok text
  | none => .error (m.registry.typeError (m.inspect v ++ " is not a symbol nor a string"))

/-- A message that nothing answers. -/
def noMethodError (receiver : Value) (name : String) : Raise :=
  m.registry.noMethodError name (m.inspect receiver)

/-- A value that arithmetic cannot take. -/
def coercionError (v : Value) (target : String) : Raise :=
  m.registry.typeError (m.className v ++ " can't be coerced into " ++ target)

-- =============================================================== objects

def newObject (t : TypeId) : Value × Machine :=
  let (o, registry) := m.registry.allocObject t .plain
  (.object o, { m with registry })

def newString (text : String) : Value × Machine :=
  let (o, registry) := m.registry.allocObject Core.string (.text text)
  (.object o, { m with registry })

def intern (text : String) : Value × Machine :=
  let (s, symbols) := m.symbols.intern text
  (.symbol s, { m with symbols })

/-- A foreign object that the machine meets now. -/
def meet (o : ForeignObject) : Value × Machine :=
  (.foreign ⟨m.foreigners.length⟩, { m with foreigners := m.foreigners ++ [o] })

/-- The singleton type of a value: nil and the booleans have their class,
heap objects get a type of their own, other values have none. -/
def singletonClass : Value → Except Raise (TypeId × Machine)
  | .nil => .ok (Core.nilClass, m)
  | .bool true => .ok (Core.trueClass, m)
  | .bool false => .ok (Core.falseClass, m)
  | .object o =>
    let (t, registry) := m.registry.singletonOf o
    .ok (t, { m with registry })
  | _ => .error (m.registry.typeError "can't define singleton")

/-- Defines a method for one value alone. -/
def defineSingletonMethod (v : Value) (name : String) (arity : Arity) (body : Body) :
    Except Raise Machine :=
  match m.singletonClass v with
  | .error e => .error e
  | .ok (t, m) => .ok { m with registry := m.registry.defineMethod t name arity body }

-- ===================================================== foreign messages

/-- Delivers a message to a foreign object, which may change what it has stored. -/
def deliver (f : ForeignId) (message : Message) : message.Reply × Machine :=
  let o := m.foreigner f
  let (reply, members) := o.receive o.members message
  (reply, { m with
    foreigners := m.foreigners.modify f.index fun o => { o with members }
    delivered := m.delivered ++ [(f, message)] })

/-- An answer of a foreign object as the program sees it: a refusal is an exception. -/
def translate {α : Type} : Except InteropError α × Machine → Except Raise α × Machine
  | (.ok a, m) => (.ok a, m)
  | (.error e, m) => (.error (m.registry.raiseOfInterop e), m)

/-- Asks a foreign object which primitive it stands for. A boolean is never taken
for a number, and a number has the narrowest width that it says it fits. -/
def primitiveKind (f : ForeignId) : PrimitiveKind × Machine :=
  let (isBoolean, m) := m.deliver f .isBoolean
  if isBoolean then (.boolean, m)
  else
    let (isString, m) := m.deliver f .isString
    if isString then (.string, m)
    else
      let (isNumber, m) := m.deliver f .isNumber
      if isNumber then
        let (fitsInInt, m) := m.deliver f .fitsInInt
        if fitsInInt then (.int, m)
        else
          let (fitsInLong, m) := m.deliver f .fitsInLong
          if fitsInLong then (.long, m)
          else
            let (fitsInDouble, m) := m.deliver f .fitsInDouble
            (if fitsInDouble then .double else .other, m)
      else (.other, m)

-- =============================================================== globals

/-- What an access to a global ends in. Hooks that nest too deep exhaust the
stack. -/
def afterAccess {α : Type} :
    Option (Except Raise α × GlobalTable HostState) → Except Raise α × Machine
  | some (answer, globals) => (answer, { m with globals })
  | none => (.error (m.registry.raise Core.systemStackError "stack level too deep"), m)

def getGlobal (name : String) : Outcome × Machine := m.afterAccess (m.globals.get name)

def setGlobal (name : String) (v : Value) : Except Raise Unit × Machine :=
  m.afterAccess (m.globals.set name v)

end Machine

end ObjectModel
