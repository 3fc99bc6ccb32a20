/-
System error numbers.

The host's numbers come as a configuration: keys bound to integers, in the
order in which the keys were first supplied. Every distinct number under the
error section gets one class; the first name with that number is its canonical
name, except that three names which most hosts share with a more common one
stand back. The other names become constants for the same class.
-/
import ObjectModel.Core.Types

namespace ObjectModel

/-- Integer facts about the host. Supplying a key again changes its number
and keeps its place. -/
abbrev NativeConfiguration := Bindings Fixnum

namespace NativeConfiguration

/-- What is left of a text behind a given start. -/
def behind? : List Char → List Char → Option (List Char)
  | [], text => some text
  | _ :: _, [] => none
  | c :: start, d :: text => if c = d then behind? start text else none

/-- The entries whose keys start with `start`, by the rest of their keys. -/
def entriesUnder (config : NativeConfiguration) (start : String) : List (String × Fixnum) :=
  config.entries.filterMap fun (key, value) =>
    (behind? start.toList key.toList).map fun rest => (String.ofList rest, value)

end NativeConfiguration

/-- The section of the configuration that holds the error numbers. -/
def errnoSection : String := "platform.errno."

/-- Names that a more common name goes before. -/
def secondaryErrnoNames : List String := ["EWOULDBLOCK", "EDEADLOCK", "ENOTSUP"]

/-- A number with its canonical name and its class. -/
structure ErrnoRow where
  number : Fixnum
  name : String
  cls : TypeId

structure ErrnoTable where
  /-- One row per number. -/
  rows : List ErrnoRow
  /-- The class of every configured name. -/
  classes : Bindings TypeId
deriving Inhabited

namespace ErrnoTable

def empty : ErrnoTable := ⟨[], .empty⟩

def row? (t : ErrnoTable) (number : Fixnum) : Option ErrnoRow :=
  t.rows.find? (·.number = number)

/-- The canonical name of a number. -/
def nameOf? (t : ErrnoTable) (number : Fixnum) : Option String :=
  (t.row? number).map (·.name)

/-- The class of a name, canonical or not. -/
def class? (t : ErrnoTable) (name : String) : Option TypeId := t.classes.get? name

def size (t : ErrnoTable) : Nat := t.rows.length

/-- The configured numbers in the order in which they are defined. -/
def order (config : NativeConfiguration) : List (String × Fixnum) :=
  let entries := NativeConfiguration.entriesUnder config errnoSection
  let (secondary, primary) := entries.partition fun e => secondaryErrnoNames.contains e.1
  primary ++ secondary

/-- Defines one name: a class for a new number, a constant for a known one. -/
def add (state : ErrnoTable × Registry) (entry : String × Fixnum) :
    Except RegistryError (ErrnoTable × Registry) :=
  let (t, r) := state
  let (name, number) := entry
  match t.row? number with
  | some row =>
    .ok ({ t with classes := t.classes.set name row.cls },
      r.setConstant Core.errno name (r.typeValue row.cls))
  | none =>
    match r.defineClassUnder Core.errno (some Core.systemCallError) name none with
    | (.error e, _) => .error e
    | (.ok cls, r) =>
      .ok ({ rows := t.rows ++ [⟨number, name, cls⟩], classes := t.classes.set name cls },
        r.setConstant cls "Errno" (.fixnum number))

/-- Defines the classes of a configuration in a registry with the core types. -/
def define (r : Registry) (config : NativeConfiguration) :
    Except RegistryError (ErrnoTable × Registry) :=
  (order config).foldlM add (empty, r)

end ErrnoTable

/-- The error numbers of a Linux host, by name. -/
def linuxErrnos : List (String × Int) := [
  ("EPERM", 1), ("ENOENT", 2), ("ESRCH", 3), ("EINTR", 4), ("EIO", 5), ("ENXIO", 6),
  ("E2BIG", 7), ("ENOEXEC", 8), ("EBADF", 9), ("ECHILD", 10), ("EAGAIN", 11),
  ("EWOULDBLOCK", 11), ("ENOMEM", 12), ("EACCES", 13), ("EFAULT", 14), ("EBUSY", 16),
  ("EEXIST", 17), ("EXDEV", 18), ("ENODEV", 19), ("ENOTDIR", 20), ("EISDIR", 21),
  ("EINVAL", 22), ("ENFILE", 23), ("EMFILE", 24), ("ENOTTY", 25), ("EFBIG", 27),
  ("ENOSPC", 28), ("ESPIPE", 29), ("EROFS", 30), ("EMLINK", 31), ("EPIPE", 32),
  ("EDOM", 33), ("ERANGE", 34), ("EDEADLK", 35), ("EDEADLOCK", 35), ("ENAMETOOLONG", 36),
  ("ENOSYS", 38), ("ENOTEMPTY", 39), ("ELOOP", 40), ("ENOTSOCK", 88), ("EOPNOTSUPP", 95),
  ("ENOTSUP", 95), ("EADDRINUSE", 98), ("ECONNRESET", 104), ("ETIMEDOUT", 110),
  ("ECONNREFUSED", 111), ("EINPROGRESS", 115)]

/-- The configuration of a Linux host. -/
def NativeConfiguration.linux : NativeConfiguration :=
  linuxErrnos.foldl (fun config (name, number) =>
    match Fixnum.ofInt? number with
    | some n => config.set (errnoSection ++ name) n
    | none => config) .empty

end ObjectModel
