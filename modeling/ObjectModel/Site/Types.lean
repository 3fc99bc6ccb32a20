/-
Call sites that remember types.

A site asked for the type of a value remembers a rule for the value's kind:
an immediate has a fixed type, a heap object carries its type in its header.
The site for meta types remembers some objects with singleton types by
identity before that; a singleton is never taken off an object, so such a
memory stays true.
-/
import ObjectModel.GuardChain
import ObjectModel.Machine.Basic

namespace ObjectModel

/-- How the type of a kind of values is found. -/
inductive Resolution where
  | fixed (t : TypeId)
  /-- The object's header tells. -/
  | header
deriving DecidableEq

structure KindRule where
  kind : ValueKind
  resolution : Resolution
deriving DecidableEq

namespace KindRule

/-- The type of a value that the rule is for. -/
def typeOf? (m : Machine) (header : HeapObject → TypeId) (rule : KindRule) (v : Value) :
    Option TypeId :=
  if v.kind = rule.kind then
    match rule.resolution, v with
    | .fixed t, _ => some t
    | .header, .object o => some (header (m.registry.cell o))
    | .header, _ => none
  else none

/-- The rule for a value whose type is `t`. -/
def learn (v : Value) (t : TypeId) : KindRule :=
  ⟨v.kind, if v.kind = .object then .header else .fixed t⟩

/-- Rules for one kind are the same rule. -/
def same (a b : KindRule) : Bool := a.kind == b.kind

end KindRule

-- ========================================================= logical types

/-- A site for logical types. -/
structure LogicalTypeSite where
  kinds : GuardChain KindRule

namespace LogicalTypeSite

def fresh (limits : CacheLimits) : LogicalTypeSite := ⟨.empty limits.kinds⟩

def resolve (site : LogicalTypeSite) (m : Machine) (v : Value) : TypeId × LogicalTypeSite :=
  match site.kinds.findMap? (KindRule.typeOf? m HeapObject.logicalType · v) with
  | some t => (t, site)
  | none =>
    let t := m.logicalType v
    (t, ⟨(site.kinds.install KindRule.same (KindRule.learn v t)).2⟩)

end LogicalTypeSite

-- ============================================================ meta types

/-- An object that carried a singleton type. -/
structure IdentityRule where
  object : ObjectId
  singleton : TypeId
deriving DecidableEq

/-- Rules for one object are the same rule. -/
def IdentityRule.same (a b : IdentityRule) : Bool := a.object == b.object

/-- A site for meta types. -/
structure MetaTypeSite where
  identities : GuardChain IdentityRule
  kinds : GuardChain KindRule

namespace MetaTypeSite

def fresh (limits : CacheLimits) : MetaTypeSite :=
  ⟨.empty limits.identities, .empty limits.kinds⟩

/-- The type by kind, once identity has told nothing. -/
def resolveByKind (site : MetaTypeSite) (m : Machine) (v : Value) : TypeId × MetaTypeSite :=
  match site.kinds.findMap? (KindRule.typeOf? m HeapObject.metaType · v) with
  | some t => (t, site)
  | none =>
    let t := m.metaType v
    (t, { site with kinds := (site.kinds.install KindRule.same (KindRule.learn v t)).2 })

def resolve (site : MetaTypeSite) (m : Machine) (v : Value) : TypeId × MetaTypeSite :=
  match v with
  | .object o =>
    let known := site.identities.findMap? fun rule =>
      if rule.object = o then some rule.singleton else none
    match known, (m.registry.cell o).singleton with
    | some t, _ => (t, site)
    | none, some t =>
      (t, { site with identities := (site.identities.install IdentityRule.same ⟨o, t⟩).2 })
    | none, none => site.resolveByKind m v
  | _ => site.resolveByKind m v

end MetaTypeSite

end ObjectModel
