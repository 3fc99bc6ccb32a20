/-
Call sites that remember the way to a record.

A storage site keeps the layouts that the last walk passed, with their
versions, and goes the same number of steps again as long as every layout on
the way is still the same one in the same version. A way that turns out wrong
is walked anew and remembered instead; after too many wrong ways the site
stops remembering.
-/
import ObjectModel.Scope.Frames
import ObjectModel.Machine.Options

namespace ObjectModel

structure StorageSite where
  path : Option Activations.Path
  failures : Nat
  failureLimit : Nat

namespace StorageSite

def fresh (limits : CacheLimits) : StorageSite := ⟨none, 0, limits.storageFailures⟩

/-- Whether the site has stopped remembering. -/
def generic (site : StorageSite) : Bool := site.failureLimit ≤ site.failures

/-- How many steps the remembered way has. -/
def cachedDepth? (site : StorageSite) : Option Nat := site.path.map fun p => p.length - 1

/-- The frame at the end of a remembered way, if the way still holds. -/
def replay (a : Activations) : FrameId → Activations.Path → Option FrameId
  | f, [] => some f
  | f, (layout, version) :: rest =>
    if (a.frame f).layout = layout ∧ (a.layout layout).version = version then
      match rest with
      | [] => some f
      | _ :: _ => (a.frame f).declaration.bind (replay a · rest)
    else none

/-- Walks, and remembers the way. -/
def relearn (site : StorageSite) (a : Activations) (f : FrameId) (t : ThreadId) :
    RecordId × StorageSite × Activations :=
  let (s, path, a) := a.locate f t
  (s, { site with path := some path }, a)

/-- The record of a frame, by the remembered way if it holds. -/
def storageOf (site : StorageSite) (a : Activations) (f : FrameId) (t : ThreadId) :
    RecordId × StorageSite × Activations :=
  if site.generic then
    let (s, a) := a.storageOf f t
    (s, site, a)
  else
    match site.path with
    | none => site.relearn a f t
    | some path =>
      match replay a f path with
      | some owner =>
        let (s, a) := a.materialize owner t
        (s, site, a)
      | none =>
        let failed := { site with failures := site.failures + 1 }
        if failed.generic then
          let (s, a) := a.storageOf f t
          (s, { failed with path := none }, a)
        else failed.relearn a f t

end StorageSite

end ObjectModel
