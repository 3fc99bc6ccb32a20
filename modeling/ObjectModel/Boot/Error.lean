/-
Failures that end a start.
-/
import ObjectModel.Raise
import ObjectModel.Files.Tree
import ObjectModel.Machine.Lifecycle

namespace ObjectModel

inductive BootError where
  | registry (e : RegistryError)
  /-- A file that could not be read. -/
  | file (path : String) (e : FileError)
  /-- An exception out of a unit of the core library. -/
  | coreLibraryRaised (unit : String) (e : Raise)
  /-- A constant that the core library should have defined. -/
  | missingConstant (path : String)
  | illegalTransition (source target : LifecycleState)
deriving DecidableEq

namespace BootError

def message : BootError → String
  | .registry e => e.message
  | .file path e => "error reading " ++ path ++ ": " ++ e.message
  | .coreLibraryRaised unit e =>
    "exception while loading core library " ++ unit ++ ": " ++ e.display
  | .missingConstant path => "core library did not define " ++ path
  | .illegalTransition source target =>
    "illegal lifecycle transition " ++ source.name ++ " -> " ++ target.name

/-- The kind of a failure, by name. -/
def kind : BootError → String
  | .registry _ => "Registry"
  | .file _ _ => "Io"
  | .coreLibraryRaised _ _ => "CoreLibraryRaised"
  | .missingConstant _ => "MissingConstant"
  | .illegalTransition _ _ => "IllegalTransition"

/-- The text of the failure underneath, if there is one. -/
def cause? : BootError → Option String
  | .registry e => some e.message
  | .file _ e => some e.message
  | .coreLibraryRaised _ e => some e.display
  | .missingConstant _ => none
  | .illegalTransition _ _ => none

end BootError

end ObjectModel
