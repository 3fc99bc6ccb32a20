/-
Call sites that remember methods.

What a name found from a meta type on is remembered with the epoch of the
registry. A definition or a mixin that could change the answer moves the
epoch, so entries of another epoch are passed over, and dropped before the
next entry is taken in.
-/
import ObjectModel.Site.Types
import ObjectModel.Send.Step

namespace ObjectModel

/-- What a lookup found, perhaps nothing. -/
structure LookupEntry where
  metaType : TypeId
  epoch : Nat
  name : String
  method? : Option Method
deriving DecidableEq

/-- Entries for one question are the same entry. -/
def LookupEntry.same (a b : LookupEntry) : Bool :=
  a.metaType == b.metaType && a.epoch == b.epoch && a.name == b.name

/-- A site that resolves receivers and looks up methods. -/
structure LookupSite where
  types : MetaTypeSite
  lookups : GuardChain LookupEntry

namespace LookupSite

def fresh (limits : CacheLimits) : LookupSite :=
  ⟨.fresh limits, .empty limits.lookups⟩

/-- The method that a name finds from a type on, remembered or looked up. -/
def methodFrom (lookups : GuardChain LookupEntry) (m : Machine) (t : TypeId) (name : String) :
    Option Method × GuardChain LookupEntry :=
  let epoch := m.registry.epoch
  let known := lookups.findMap? fun e =>
    if e.metaType = t ∧ e.epoch = epoch ∧ e.name = name then some e.method? else none
  match known with
  | some method? => (method?, lookups)
  | none =>
    let method? := m.registry.findMethod? t name
    let current := lookups.retain (·.epoch == epoch)
    (method?, (current.install LookupEntry.same ⟨t, epoch, name, method?⟩).2)

/-- The method that a send to a receiver finds. -/
def find (site : LookupSite) (m : Machine) (receiver : Value) (name : String) :
    Option Method × LookupSite :=
  let (t, types) := site.types.resolve m receiver
  let (method?, lookups) := methodFrom site.lookups m t name
  (method?, ⟨types, lookups⟩)

end LookupSite

end ObjectModel
