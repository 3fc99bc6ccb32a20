/-
Starting a machine.

The core types and their primitives come first, then the classes of the error
numbers, the patches of the home directory, the main object and the globals
with their aliases, and at last the constants that a program finds before any
of its code has run.
-/
import ObjectModel.Boot.Error
import ObjectModel.Core.Primitives
import ObjectModel.Machine.Flags

namespace ObjectModel

/-- What the machine calls itself, and the language it runs. -/
def engineName : String := "garnet"
def languageVersion : String := "3.2.2"
def platformName : String := "x86_64-linux"

namespace Machine

/-- The globals that a machine starts with. -/
def initialGlobals (o : Options) : GlobalTable HostState :=
  let t := GlobalTable.empty .empty
  let t := t.setInternal debugGlobal (.bool o.debug)
  let t := t.setInternal verboseGlobal o.verbosity.value
  let t := t.setInternal loadPathGlobal .nil
  let t := t.addAlias "$:" loadPathGlobal
  let t := t.addAlias "$-I" loadPathGlobal
  let t := t.addAlias "$-d" debugGlobal
  let t := t.addAlias "$-v" verboseGlobal
  t.addAlias "$-w" verboseGlobal

/-- A machine around a registry, with nothing in it yet. -/
def around (o : Options) (coreLoadPath : String) (r : Registry) : Machine :=
  let (main, r) := r.allocObject Core.object .plain
  let (undefined, r) := r.allocObject Core.object .plain
  { options := o
    coreLoadPath
    symbols := .empty
    registry := r
    globals := initialGlobals o
    foreigners := []
    delivered := []
    errno := .empty
    patches := .empty
    lifecycle := .initializing
    mainObject := main
    undefinedObject := undefined
    flags := none }

/-- A machine with the first four types and nothing else. -/
def bare : Machine := around .standard "" .initial

/-- Binds a constant. -/
def setConstant (m : Machine) (owner : TypeId) (name : String) (v : Value) : Machine :=
  { m with registry := m.registry.setConstant owner name v }

/-- Binds a constant of `Object` to a new string. -/
def setTextConstant (m : Machine) (name text : String) : Machine :=
  let (v, m) := m.newString text
  m.setConstant Core.object name v

/-- Binds the constants and gives the main object its name. -/
def withBootConstants (m : Machine) : Except BootError Machine :=
  let m := m.setTextConstant "RUBY_ENGINE" engineName
  let m := m.setTextConstant "RUBY_VERSION" languageVersion
  let m := m.setConstant Core.object "RUBY_PATCHLEVEL" (.ofInt 0)
  let m := m.setTextConstant "RUBY_PLATFORM" platformName
  let m := m.setConstant Core.basicObject "BasicObject" (m.registry.typeValue Core.basicObject)
  let m := m.setConstant Core.truffle "UNDEFINED" (.object m.undefinedObject)
  let main := Value.object m.mainObject
  let name := Body.primitive (.newText "main")
  let named := do
    let m ← m.defineSingletonMethod main "to_s" (.exactly 0) name
    m.defineSingletonMethod main "inspect" (.exactly 0) name
  match named with
  | .ok m => .ok m
  | .error e => .error (.coreLibraryRaised "<boot>" e)

/-- The registry that machines start with, and the classes of their error
numbers. -/
def bootRegistry (config : NativeConfiguration) :
    Except RegistryError (ErrnoTable × Registry) := do
  let core ← Core.registry
  let (errno, r) ← ErrnoTable.define (Core.installPrimitives core) config
  r.verify
  pure (errno, r)

/-- A new machine. -/
def start (o : Options) (config : NativeConfiguration) (files : FileTree) :
    Except BootError Machine :=
  match o.resolvedLoadPath files with
  | .error (path, e) => .error (.file path e)
  | .ok coreLoadPath =>
    match bootRegistry config with
    | .error e => .error (.registry e)
    | .ok (errno, r) =>
      let patches :=
        match o.home, o.patching with
        | some home, true => PatchFiles.discover files home
        | _, _ => .empty
      withBootConstants { around o coreLoadPath r with errno, patches }

end Machine

end ObjectModel
