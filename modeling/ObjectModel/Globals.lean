/-
Global variables.

A name leads to a storage; aliases lead to the same one. A storage holds a
value, or is hooked: reading, writing and asking whether it is defined are
then answered by hooks, which are code of the host. A hook runs in the state of
the host, of which the table knows nothing, and it may make any call on the
table that it hooks into.

Calls that hooks make may need further hooks, each inside the last one. The
stack ends that somewhere: a call that would nest deeper does not come back.
-/
import ObjectModel.Bindings
import ObjectModel.Raise

namespace ObjectModel

/-- A storage, by its place in the table; what a reader keeps. -/
structure StorageId where
  index : Nat
deriving DecidableEq, Inhabited

-- ================================================================= hooks

/-- What kind of answer a call comes back with. -/
inductive Answer where
  | value
  | assigned
  | defined
  | reader
  | names
  | done
deriving DecidableEq

/-- The answers of a kind. -/
abbrev Answer.Reply : Answer → Type
  | .value => Except Raise Value
  | .assigned => Except Raise Unit
  | .defined => Bool
  | .reader => StorageId
  | .names => List String
  | .done => Unit

mutual

/-- Code of the host behind a global, by the kind of its answer. `σ` is the state
of the host. -/
inductive Hook (σ : Type) : Answer → Type where
  | answer {a : Answer} (reply : a.Reply) : Hook σ a
  /-- The host changes its state, and goes on by what that was. -/
  | host {a : Answer} (change : σ → σ) (next : σ → Hook σ a) : Hook σ a
  /-- It makes a call on the table, and goes on by the answer. -/
  | call {a b : Answer} (c : GlobalCall σ b) (next : b.Reply → Hook σ a) : Hook σ a

/-- A call on a table of globals, by the kind of its answer. -/
inductive GlobalCall (σ : Type) : Answer → Type where
  | get (name : String) : GlobalCall σ .value
  | set (name : String) (value : Value) : GlobalCall σ .assigned
  | isDefined (name : String) : GlobalCall σ .defined
  | setInternal (name : String) (value : Value) : GlobalCall σ .done
  | defineHooked (name : String) (getter : Hook σ .value) (setter : Value → Hook σ .assigned)
      (defined : Hook σ .defined) : GlobalCall σ .done
  | addAlias (newName oldName : String) : GlobalCall σ .done
  | reader (name : String) : GlobalCall σ .reader
  /-- Reads through a reader. -/
  | read (id : StorageId) : GlobalCall σ .value
  | isDefinedAt (id : StorageId) : GlobalCall σ .defined
  | names : GlobalCall σ .names

end

/-- The hooks of a global. -/
structure Hooks (σ : Type) where
  getter : Hook σ .value
  setter : Value → Hook σ .assigned
  defined : Hook σ .defined

-- ================================================================= tables

inductive Storage (σ : Type) where
  | plain (value : Value) (defined : Bool)
  | hooked (hooks : Hooks σ)

/-- A storage that nothing was put into. -/
def Storage.blank {σ : Type} : Storage σ := .plain .nil false

structure GlobalTable (σ : Type) where
  storages : List (Storage σ)
  names : Bindings StorageId
  /-- The state of the host that the hooks run in. -/
  host : σ

namespace GlobalTable

variable {σ : Type}

def empty (host : σ) : GlobalTable σ := ⟨[], .empty, host⟩

instance [Inhabited σ] : Inhabited (GlobalTable σ) := ⟨empty default⟩

def storage (t : GlobalTable σ) (id : StorageId) : Storage σ :=
  t.storages.getD id.index .blank

/-- The storage of a name, made now if there is none. -/
def storageOf (t : GlobalTable σ) (name : String) : StorageId × GlobalTable σ :=
  match t.names.get? name with
  | some id => (id, t)
  | none =>
    let id : StorageId := ⟨t.storages.length⟩
    (id, { t with storages := t.storages ++ [.blank], names := t.names.set name id })

/-- Puts something else in the place of a storage. -/
def replace (t : GlobalTable σ) (id : StorageId) (storage : Storage σ) : GlobalTable σ :=
  { t with storages := t.storages.modify id.index fun _ => storage }

/-- Puts a value into a global's storage, in the place of any hooks. -/
def setInternal (t : GlobalTable σ) (name : String) (value : Value) : GlobalTable σ :=
  let (id, t) := t.storageOf name
  t.replace id (.plain value true)

/-- Hooks a global. Its storage stays, so aliases and readers see the hooks. -/
def defineHooked (t : GlobalTable σ) (name : String) (hooks : Hooks σ) : GlobalTable σ :=
  let (id, t) := t.storageOf name
  t.replace id (.hooked hooks)

/-- Makes a name lead to another name's storage. -/
def addAlias (t : GlobalTable σ) (newName oldName : String) : GlobalTable σ :=
  let (id, t) := t.storageOf oldName
  { t with names := t.names.set newName id }

/-- A handle on a global's storage, which it keeps whatever the name comes to
lead to. -/
def reader (t : GlobalTable σ) (name : String) : StorageId × GlobalTable σ := t.storageOf name

end GlobalTable

-- ================================================================== calls

/-- What a call or a hook comes back with, and the table that it leaves; nothing if
it does not come back. -/
abbrev Return (σ : Type) (a : Answer) := Option (a.Reply × GlobalTable σ)

/-- What hooks come to. -/
abbrev Enter (σ : Type) := (a : Answer) → Hook σ a → GlobalTable σ → Return σ a

/-- What calls come to. -/
abbrev Perform (σ : Type) := (a : Answer) → GlobalCall σ a → GlobalTable σ → Return σ a

variable {σ : Type}

/-- A hook runs, making calls. -/
def Hook.run (perform : Perform σ) {a : Answer} : Hook σ a → GlobalTable σ → Return σ a
  | .answer reply, t => some (reply, t)
  | .host change next, t => (next t.host).run perform { t with host := change t.host }
  | .call c next, t =>
    match perform _ c t with
    | some (reply, t) => (next reply).run perform t
    | none => none

/-- The value in a storage, or what its getter answers. -/
def Storage.get (enter : Enter σ) (t : GlobalTable σ) : Storage σ → Return σ .value
  | .plain value _ => some (.ok value, t)
  | .hooked hooks => enter _ hooks.getter t

def Storage.isDefined (enter : Enter σ) (t : GlobalTable σ) : Storage σ → Return σ .defined
  | .plain _ defined => some (defined, t)
  | .hooked hooks => enter _ hooks.defined t

/-- A call, entering a hook if it needs one. Globals that do not exist read as
nil. -/
def GlobalCall.perform (enter : Enter σ) {a : Answer} :
    GlobalCall σ a → GlobalTable σ → Return σ a
  | .get name, t =>
    match t.names.get? name with
    | some id => (t.storage id).get enter t
    | none => some (.ok .nil, t)
  | .set name value, t =>
    let (id, t) := t.storageOf name
    match t.storage id with
    | .plain _ _ => some (.ok (), t.replace id (.plain value true))
    | .hooked hooks => enter _ (hooks.setter value) t
  | .isDefined name, t =>
    match t.names.get? name with
    | some id => (t.storage id).isDefined enter t
    | none => some (false, t)
  | .setInternal name value, t => some ((), t.setInternal name value)
  | .defineHooked name getter setter defined, t =>
    some ((), t.defineHooked name ⟨getter, setter, defined⟩)
  | .addAlias newName oldName, t => some ((), t.addAlias newName oldName)
  | .reader name, t => some (t.reader name)
  | .read id, t => (t.storage id).get enter t
  | .isDefinedAt id, t => (t.storage id).isDefined enter t
  | .names, t => some (t.names.names, t)

/-- A hook runs with room for this many hooks inside each other. -/
def Hook.enterWithin : Nat → Enter σ
  | 0, _, _, _ => none
  | depth + 1, _, hook, t => hook.run (fun _ c t => c.perform (enterWithin depth) t) t

/-- The room that the stack has for hooks inside each other. -/
def hookDepth : Nat := 10000

/-- A hook runs. -/
def Hook.enter : Enter σ := Hook.enterWithin hookDepth

namespace GlobalTable

/-- A call on the table. -/
def call (t : GlobalTable σ) {a : Answer} (c : GlobalCall σ a) : Return σ a :=
  c.perform Hook.enter t

/-- The value of a global. -/
def get (t : GlobalTable σ) (name : String) : Return σ .value := t.call (.get name)

/-- Assigns to a global. -/
def set (t : GlobalTable σ) (name : String) (value : Value) : Return σ .assigned :=
  t.call (.set name value)

def isDefined (t : GlobalTable σ) (name : String) : Return σ .defined := t.call (.isDefined name)

/-- The value that a reader reads. -/
def read (t : GlobalTable σ) (id : StorageId) : Return σ .value := t.call (.read id)

def isDefinedAt (t : GlobalTable σ) (id : StorageId) : Return σ .defined := t.call (.isDefinedAt id)

end GlobalTable

end ObjectModel
