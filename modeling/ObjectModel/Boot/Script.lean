/-
A small definition language for units.

A unit is a list of lines; a line of three words (two for a module) defines
something or raises, and any other line does nothing. The loader for this
language keeps a record of every unit that it ran.
-/
import ObjectModel.Boot.Load

namespace ObjectModel.Script

-- ================================================================= lines

/-- What a line does. -/
inductive Command where
  /-- Sets a constant of a type to true. -/
  | constant (owner name : String)
  | newModule (name : String)
  | newClass (name superclass : String)
  /-- Sets a global to true, false, nil or a new string. -/
  | global (name text : String)
  | raise (cls message : String)

/-- The lines of a text. A carriage return in front of a line feed belongs to
the line feed. -/
def lines : List Char → List (List Char)
  | [] => []
  | ['\n'] => [[]]
  | '\r' :: '\n' :: rest => [] :: lines rest
  | '\n' :: rest => [] :: lines rest
  | c :: rest =>
    match rest, lines rest with
    | [], _ => [[c]]
    | _, [] => [[c]]
    | _, line :: more => (c :: line) :: more

/-- The pieces of a line between single spaces. -/
def words : List Char → List (List Char)
  | [] => [[]]
  | c :: rest =>
    if c = ' ' then [] :: words rest
    else
      match words rest with
      | [] => [[c]]
      | word :: more => (c :: word) :: more

/-- The command of a line, if it is one. -/
def Command.ofLine? (line : List Char) : Option Command :=
  match (words line).map String.ofList with
  | ["const", owner, name] => some (.constant owner name)
  | ["module", name] => some (.newModule name)
  | ["class", name, superclass] => some (.newClass name superclass)
  | ["global", name, text] => some (.global name text)
  | ["raise", cls, message] => some (.raise cls message)
  | _ => none

/-- The commands of a text, in order. -/
def commands (text : String) : List Command := (lines text.toList).filterMap Command.ofLine?

-- =============================================================== running

/-- The type that a path resolves to. -/
def resolveType? (m : Machine) (path : String) : Option TypeId :=
  (m.registry.resolve? path).bind m.registry.typeOf?

/-- A definition; a refusal becomes an exception. -/
def defining (m : Machine) (result : Except RegistryError TypeId × Registry) :
    Except Raise Unit × Machine :=
  match result with
  | (.ok _, registry) => (.ok (), { m with registry })
  | (.error e, registry) => (.error (registry.raiseOfRegistry e), { m with registry })

/-- The value that a word stands for. -/
def wordValue (m : Machine) (text : String) : Value × Machine :=
  if text = "true" then (.bool true, m)
  else if text = "false" then (.bool false, m)
  else if text = "nil" then (.nil, m)
  else m.newString text

def Command.run (m : Machine) : Command → Except Raise Unit × Machine
  | .constant owner name =>
    match resolveType? m owner with
    | some t => (.ok (), { m with registry := m.registry.setConstant t name (.bool true) })
    | none => (.error (m.registry.nameError ("uninitialized constant " ++ owner)), m)
  | .newModule name => defining m (m.registry.defineModule name)
  | .newClass name superclass =>
    defining m (m.registry.defineClass (resolveType? m superclass) name none)
  | .global name text =>
    let (v, m) := wordValue m text
    m.setGlobal name v
  | .raise cls message =>
    (.error (m.registry.raise ((resolveType? m cls).getD Core.runtimeError) message), m)

/-- Runs commands up to the first that raises; what ran before it stays. -/
def runAll : List Command → Machine → Except Raise Value × Machine
  | [], m => (.ok .nil, m)
  | c :: rest, m =>
    match c.run m with
    | (.ok _, m) => runAll rest m
    | (.error e, m) => (.error e, m)

/-- What was seen when a unit ran. -/
structure Sighting where
  path : String
  bytes : Nat
  lifecycle : LifecycleState
  debug : Bool
  context : DeclarationContext
  receiver : Value

/-- The start of a text that does not parse. -/
def syntaxFault : String := "syntax-error "

/-- The loader of the language; it keeps what it saw, the latest last. -/
def loader : CodeLoader (List Sighting) SourceUnit where
  parse source seen m :=
    match NativeConfiguration.behind? syntaxFault.toList source.text.toList with
    | some message =>
      (.error (m.registry.raise Core.syntaxError (String.ofList message)), seen, m)
    | none => (.ok source, seen, m)
  run unit context receiver seen m :=
    let (debug, m) := m.debug
    let sighting : Sighting :=
      ⟨unit.path, unit.text.utf8ByteSize, m.lifecycle, debug, context, receiver⟩
    let (result, m) := runAll (commands unit.text) m
    (result, seen ++ [sighting], m)

end ObjectModel.Script
