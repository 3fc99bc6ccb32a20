/-
What a machine is started with.

The core load path is where the core library is read from: a resource path is
taken as it stands, a file path has to exist and is made absolute. The limits
say how much a call site remembers.
-/
import ObjectModel.Value
import ObjectModel.Files.Tree

namespace ObjectModel

/-- The start of resource paths. -/
def resourceScheme : String := "resource:"

/-- How much a program is told: nothing, the usual, or everything. -/
inductive Verbosity where
  | silent
  | normal
  | verbose
deriving DecidableEq, Inhabited

/-- The value of the global that holds the verbosity. -/
def Verbosity.value : Verbosity → Value
  | .silent => .nil
  | .normal => .bool false
  | .verbose => .bool true

/-- How many entries the chains of a call site hold, and how often a storage
site may be wrong before it stops remembering. -/
structure CacheLimits where
  kinds : Nat
  identities : Nat
  lookups : Nat
  dispatch : Nat
  storageFailures : Nat
deriving DecidableEq

/-- The limits that sites have when nothing else is said. -/
def CacheLimits.standard : CacheLimits := ⟨8, 1, 8, 8, 3⟩

instance : Inhabited CacheLimits := ⟨.standard⟩

structure Options where
  coreLoadPath : String
  home : Option String
  patching : Bool
  verbosity : Verbosity
  debug : Bool
  caches : CacheLimits
deriving Inhabited

namespace Options

/-- The options of a machine that nothing was asked of. -/
def standard : Options where
  coreLoadPath := resourceScheme ++ "/truffleruby"
  home := none
  patching := true
  verbosity := .normal
  debug := false
  caches := .standard

/-- A path without slashes at its end. -/
def withoutSlashes (path : String) : String :=
  String.ofList (path.toList.reverse.dropWhile (· == '/')).reverse

/-- Whether a path names a resource. -/
def isResource (path : String) : Bool := resourceScheme.toList.isPrefixOf path.toList

/-- The load path in its final form. A file path that leads nowhere is
reported with the path that was looked for. -/
def resolvedLoadPath (o : Options) (files : FileTree) : Except (String × FileError) String :=
  let path := withoutSlashes o.coreLoadPath
  if isResource path then .ok path
  else
    match files.canonicalize path with
    | .ok canonical => .ok canonical
    | .error e => .error (path, e)

end Options

end ObjectModel
