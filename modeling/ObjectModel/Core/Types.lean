/-
The core types.

The types that every program starts with, in the order in which they are
defined: the first four types of the registry, then the declarations below.
Since a type is its place in the registry, the places of the types that other
parts of the library speak of are fixed here.
-/
import ObjectModel.Registry.Define

namespace ObjectModel.Core

-- ================================================================ places

abbrev kernel : TypeId := ⟨4⟩
abbrev comparable : TypeId := ⟨5⟩
abbrev enumerable : TypeId := ⟨6⟩
abbrev nilClass : TypeId := ⟨7⟩
abbrev trueClass : TypeId := ⟨8⟩
abbrev falseClass : TypeId := ⟨9⟩
abbrev numeric : TypeId := ⟨10⟩
abbrev integer : TypeId := ⟨11⟩
abbrev float : TypeId := ⟨12⟩
abbrev symbol : TypeId := ⟨13⟩
abbrev string : TypeId := ⟨14⟩
abbrev array : TypeId := ⟨15⟩
abbrev hash : TypeId := ⟨16⟩
abbrev range : TypeId := ⟨17⟩
abbrev dir : TypeId := ⟨20⟩
abbrev exception : TypeId := ⟨21⟩
abbrev scriptError : TypeId := ⟨23⟩
abbrev syntaxError : TypeId := ⟨26⟩
abbrev signalException : TypeId := ⟨28⟩
abbrev systemStackError : TypeId := ⟨31⟩
abbrev standardError : TypeId := ⟨32⟩
abbrev argumentError : TypeId := ⟨33⟩
abbrev ioError : TypeId := ⟨36⟩
abbrev indexError : TypeId := ⟨38⟩
abbrev nameError : TypeId := ⟨42⟩
abbrev noMethodError : TypeId := ⟨43⟩
abbrev rangeError : TypeId := ⟨44⟩
abbrev runtimeError : TypeId := ⟨47⟩
abbrev systemCallError : TypeId := ⟨49⟩
abbrev typeError : TypeId := ⟨51⟩
abbrev zeroDivisionError : TypeId := ⟨52⟩
abbrev errno : TypeId := ⟨53⟩
abbrev polyglot : TypeId := ⟨54⟩
abbrev foreignObject : TypeId := ⟨55⟩
abbrev unsupportedMessageError : TypeId := ⟨56⟩
abbrev truffle : TypeId := ⟨57⟩
abbrev interop : TypeId := ⟨58⟩
/-- Where looking up messages to foreign objects starts. -/
abbrev foreign : TypeId := ⟨59⟩
abbrev interopException : TypeId := ⟨60⟩

-- ========================================================== declarations

/-- A type to define: a module, or a class with its superclass and perhaps a
layout of its own. -/
inductive Declaration where
  | newModule (parent : TypeId) (name : String)
  | newClass (parent superclass : TypeId) (name : String) (shape : Option String)

/-- A class of `Object` with its superclass's layout. -/
def derived (superclass : TypeId) (name : String) : Declaration :=
  .newClass object superclass name none

/-- A class of `Object` with a layout of its own. -/
def shaped (superclass : TypeId) (name shape : String) : Declaration :=
  .newClass object superclass name (some shape)

/-- The layouts of exceptions; all others have no fields. -/
def exceptionShapes : List (String × List String) := [
  ("exception", ["message", "backtrace", "cause"]),
  ("name_error", ["message", "backtrace", "cause", "name", "receiver"]),
  ("no_method_error", ["message", "backtrace", "cause", "name", "receiver", "args"]),
  ("system_call_error", ["message", "backtrace", "cause", "errno"])]

def declarations : List Declaration := [
  .newModule object "Kernel",
  .newModule object "Comparable",
  .newModule object "Enumerable",
  derived object "NilClass",
  derived object "TrueClass",
  derived object "FalseClass",
  derived object "Numeric",
  derived numeric "Integer",
  derived numeric "Float",
  derived object "Symbol",
  shaped object "String" "string",
  shaped object "Array" "array",
  shaped object "Hash" "hash",
  shaped object "Range" "range",
  shaped object "Proc" "proc",
  shaped object "IO" "io",
  derived object "Dir",
  shaped object "Exception" "exception",
  derived exception "NoMemoryError",
  derived exception "ScriptError",
  derived scriptError "LoadError",
  derived scriptError "NotImplementedError",
  derived scriptError "SyntaxError",
  derived exception "SecurityError",
  derived exception "SignalException",
  derived signalException "Interrupt",
  derived exception "SystemExit",
  derived exception "SystemStackError",
  derived exception "StandardError",
  derived standardError "ArgumentError",
  derived standardError "EncodingError",
  derived standardError "FiberError",
  derived standardError "IOError",
  derived ioError "EOFError",
  derived standardError "IndexError",
  derived indexError "KeyError",
  derived indexError "StopIteration",
  derived standardError "LocalJumpError",
  shaped standardError "NameError" "name_error",
  shaped nameError "NoMethodError" "no_method_error",
  derived standardError "RangeError",
  derived rangeError "FloatDomainError",
  derived standardError "RegexpError",
  derived standardError "RuntimeError",
  derived runtimeError "FrozenError",
  shaped standardError "SystemCallError" "system_call_error",
  derived standardError "ThreadError",
  derived standardError "TypeError",
  derived standardError "ZeroDivisionError",
  .newModule object "Errno",
  .newModule object "Polyglot",
  .newClass polyglot object "ForeignObject" none,
  .newClass polyglot standardError "UnsupportedMessageError" none,
  .newModule object "Truffle",
  .newModule truffle "Interop",
  .newClass interop object "Foreign" none,
  .newClass interop exception "InteropException" none,
  .newClass interop interopException "UnsupportedMessageException" none,
  .newClass interop interopException "InvalidArrayIndexException" none,
  .newClass interop interopException "UnknownIdentifierException" none,
  .newClass interop interopException "UnsupportedTypeException" none,
  .newClass interop interopException "ArityException" none]

/-- Which modules are mixed into which types, in order. -/
def mixins : List (TypeId × TypeId) := [
  (object, kernel),
  (numeric, comparable), (symbol, comparable), (string, comparable),
  (array, enumerable), (hash, enumerable), (range, enumerable), (dir, enumerable)]

-- ============================================================= definition

/-- Defines a layout in the registry's table. -/
def defineShape (r : Registry) (name : String) (fields : List String) : Shape × Registry :=
  let (shape, shapes) := r.shapes.define name fields
  (shape, { r with shapes })

/-- The registry that a call leaves, unless it was refused. -/
def accepted {α : Type} : Except RegistryError α × Registry → Except RegistryError Registry
  | (.ok _, r) => .ok r
  | (.error e, _) => .error e

def Declaration.define (r : Registry) : Declaration → Except RegistryError Registry
  | .newModule parent name => accepted (r.defineModuleUnder parent name)
  | .newClass parent superclass name none =>
    accepted (r.defineClassUnder parent (some superclass) name none)
  | .newClass parent superclass name (some shapeName) =>
    let (shape, r) := defineShape r shapeName []
    accepted (r.defineClassUnder parent (some superclass) name (some shape))

/-- The registry with the core types defined and the core modules mixed in. -/
def registry : Except RegistryError Registry := do
  let shaped := exceptionShapes.foldl (fun r s => (defineShape r s.1 s.2).2) Registry.initial
  let defined ← declarations.foldlM (fun r d => d.define r) shaped
  mixins.foldlM (fun r m => accepted (r.includeModule m.1 m.2)) defined

end ObjectModel.Core
