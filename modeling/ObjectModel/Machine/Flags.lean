/-
The flags of a machine.

Until the core library is loaded the flags are what the machine was started
with. From then on they are read from the globals of that name, so hooks may
run when a flag is asked for; one that fails counts as an unset flag.
-/
import ObjectModel.Machine.Basic

namespace ObjectModel

/-- The names of the globals that hold the flags. -/
def loadPathGlobal : String := "$LOAD_PATH"
def debugGlobal : String := "$DEBUG"
def verboseGlobal : String := "$VERBOSE"
def programNameGlobal : String := "$0"

namespace Machine

variable (m : Machine)

/-- The value that an access to a global ends in, nil if it fails. -/
def orNil (access : Outcome × Machine) : Value × Machine :=
  match access with
  | (.ok v, m) => (v, m)
  | (.error _, m) => (.nil, m)

/-- What a storage holds, nil if reading it fails. -/
def readOrNil (id : StorageId) : Value × Machine := orNil (m.afterAccess (m.globals.read id))

def debug : Bool × Machine :=
  match m.flags with
  | some flags =>
    let (v, m) := m.readOrNil flags.debug
    (v.isTruthy, m)
  | none => (m.options.debug, m)

def verbosity : Value × Machine :=
  match m.flags with
  | some flags => m.readOrNil flags.verbose
  | none => (m.options.verbosity.value, m)

/-- Warnings are given unless the verbosity is nil. -/
def warningsEnabled : Bool × Machine :=
  let (v, m) := m.verbosity
  (!v.isNil, m)

def isVerbose : Bool × Machine :=
  let (v, m) := m.verbosity
  (v.equal (.bool true), m)

def loadPath : Value × Machine :=
  match m.flags with
  | some flags => m.readOrNil flags.loadPath
  | none => orNil (m.getGlobal loadPathGlobal)

end Machine

end ObjectModel
