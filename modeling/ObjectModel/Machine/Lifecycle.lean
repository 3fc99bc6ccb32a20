/-
The life of a machine.

A machine is being set up, then loads its core library, then is loaded. It
only ever moves forward, and may skip a state; staying put is no move.
-/

namespace ObjectModel

inductive LifecycleState where
  | initializing
  | loadingCoreLibrary
  | loaded
deriving DecidableEq, Inhabited

namespace LifecycleState

/-- The place of a state in the order of a machine's life. -/
def rank : LifecycleState → Nat
  | .initializing => 0
  | .loadingCoreLibrary => 1
  | .loaded => 2

def name : LifecycleState → String
  | .initializing => "Initializing"
  | .loadingCoreLibrary => "LoadingCoreLibrary"
  | .loaded => "Loaded"

/-- The state of a name. -/
def ofName? (name : String) : Option LifecycleState :=
  [.initializing, .loadingCoreLibrary, .loaded].find? (·.name == name)

/-- The state after a move; nothing if it would not lead forward. -/
def advance? (source target : LifecycleState) : Option LifecycleState :=
  if source.rank < target.rank then some target else none

end LifecycleState

end ObjectModel
