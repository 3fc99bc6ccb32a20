/-
Call sites.

A dispatch site looks methods up through what it remembers, and hands a
foreign receiver without a method to its foreign side. That side remembers a
branch for every name and class of send that it has seen; the branch of a
foreign `__send__` owns a dispatch site for the message that is sent on, and
the branch of an operator owns a site per kind of primitive. A site that has
seen too much goes on without memory.

Calling a site answers what the send answers, with the site as it is
afterwards; nothing if the send would go on for ever. A site counts its steps
as a send without memory does, one for every message looked up.
-/
import ObjectModel.Site.Lookup

namespace ObjectModel

variable (natives : Natives)

-- ============================================================= operators

/-- What an operator's site remembers about one kind of primitive. -/
structure OperatorBranch where
  kind : PrimitiveKind
  site : LookupSite

/-- A site for one operator sent to foreign objects. -/
structure OperatorSite where
  limits : CacheLimits
  kinds : GuardChain OperatorBranch

namespace OperatorSite

def fresh (limits : CacheLimits) : OperatorSite := ⟨limits, .empty limits.lookups⟩

/-- Branches for one kind are the same branch. -/
def sameKind (a b : OperatorBranch) : Bool := a.kind == b.kind

/-- Sends an operator through a branch of the site, and goes on for at most
`fuel` steps. -/
def callThrough (fuel : Nat) (site : OperatorSite) (branch : OperatorBranch) (m : Machine)
    (f : ForeignId) (name : String) (args : List Value) :
    Option (Outcome × Machine × OperatorSite) :=
  match m.performOperator branch.kind f name args with
  | (.finished outcome, m) => some (outcome, m, site)
  | (.resend next, m) =>
    let (method?, lookup) := branch.site.find m next.receiver next.name
    let kinds := site.kinds.revise fun e =>
      if e.kind = branch.kind then { e with site := lookup } else e
    (Machine.runFound natives m fuel method? next).map fun (outcome, m) =>
      (outcome, m, { site with kinds })
  | (.endless, _) => none

/-- Sends an operator to a foreign object, and goes on for at most `fuel`
steps. -/
def callWithin (fuel : Nat) (site : OperatorSite) (m : Machine) (f : ForeignId) (name : String)
    (args : List Value) : Option (Outcome × Machine × OperatorSite) :=
  let (kind, m) := m.primitiveKind f
  match site.kinds.findMap? fun b => if b.kind = kind then some b else none with
  | some branch => callThrough natives fuel site branch m f name args
  | none =>
    if site.kinds.megamorphic then
      (Machine.settle natives fuel (m.performOperator kind f name args)).map fun (outcome, m) =>
        (outcome, m, site)
    else
      let branch : OperatorBranch := ⟨kind, .fresh site.limits⟩
      let kinds := (site.kinds.install sameKind branch).2
      callThrough natives fuel { site with kinds } branch m f name args

end OperatorSite

-- ================================================================= sites

mutual

/-- A site for any message to any receiver. -/
structure DispatchSite where
  lookup : LookupSite
  foreign : ForeignSite

/-- A site for messages to foreign objects. -/
structure ForeignSite where
  limits : CacheLimits
  branches : GuardChain ForeignBranch

/-- What a foreign site remembers about a name and a class of send. -/
structure ForeignBranch where
  name : String
  call : OutgoingCall
  nested : NestedSite

/-- The site that a branch goes on to, if it goes on. -/
inductive NestedSite where
  | none
  | send (site : DispatchSite)
  | operator (site : OperatorSite)

end

/-- How a dispatch site is called with a message that is sent on. -/
abbrev Onward := DispatchSite → Machine → Send → Option (Outcome × Machine × DispatchSite)

namespace ForeignSite

def fresh (limits : CacheLimits) : ForeignSite := ⟨limits, .empty limits.dispatch⟩

end ForeignSite

namespace DispatchSite

def fresh (limits : CacheLimits) : DispatchSite := ⟨.fresh limits, .fresh limits⟩

end DispatchSite

namespace ForeignBranch

/-- The branch for a name and a class of send, with the sites it will need. -/
def fresh (limits : CacheLimits) (name : String) (call : OutgoingCall) : ForeignBranch where
  name := name
  call := call
  nested :=
    match call with
    | .send => .send (.fresh limits)
    | .operator => .operator (.fresh limits)
    | _ => .none

/-- Branches for one name and one class of send are the same branch. -/
def same (a b : ForeignBranch) : Bool := a.name == b.name && a.call == b.call

/-- Whether the branch is for this send. -/
def accepts (b : ForeignBranch) (m : Machine) (name : String) (args : List Value) : Bool :=
  b.name == name && OutgoingCall.classify m.registry name args == b.call

/-- Sends through the branch, and goes on for at most `fuel` steps; `onward`
calls the nested dispatch site with the message that is sent on. -/
def perform (fuel : Nat) (onward : Onward) (b : ForeignBranch) (m : Machine) (f : ForeignId)
    (args : List Value) : Option (Outcome × Machine × ForeignBranch) :=
  match b.nested with
  | .none =>
    (Machine.settle natives fuel (m.performOutgoing b.call f b.name args)).map fun (outcome, m) =>
      (outcome, m, b)
  | .send site =>
    match m.performOutgoing b.call f b.name args with
    | (.finished outcome, m) => some (outcome, m, b)
    | (.resend next, m) =>
      (onward site m next).map fun (outcome, m, site) =>
        (outcome, m, { b with nested := .send site })
    | (.endless, _) => none
  | .operator site =>
    (site.callWithin natives fuel m f b.name args).map fun (outcome, m, site) =>
      (outcome, m, { b with nested := .operator site })

end ForeignBranch

namespace ForeignSite

/-- Puts a branch back in the place of the same branch. -/
def update (site : ForeignSite) (branch : ForeignBranch) : ForeignSite :=
  { site with
    branches := site.branches.revise fun b => if b.same branch then branch else b }

/-- Sends to a foreign object, and goes on for at most `fuel` steps; `onward`
calls a nested dispatch site with a message that is sent on. -/
def callWith (fuel : Nat) (onward : Onward) (site : ForeignSite) (m : Machine) (f : ForeignId)
    (name : String) (args : List Value) : Option (Outcome × Machine × ForeignSite) :=
  match site.branches.findMap? fun b => if b.accepts m name args then some b else none with
  | some branch =>
    (branch.perform natives fuel onward m f args).map fun (outcome, m, branch) =>
      (outcome, m, site.update branch)
  | none =>
    let call := OutgoingCall.classify m.registry name args
    if site.branches.megamorphic then
      (Machine.settle natives fuel (m.performOutgoing call f name args)).map fun (outcome, m) =>
        (outcome, m, site)
    else
      let branch := ForeignBranch.fresh site.limits name call
      let site := { site with branches := (site.branches.install ForeignBranch.same branch).2 }
      (branch.perform natives fuel onward m f args).map fun (outcome, m, branch) =>
        (outcome, m, site.update branch)

end ForeignSite

namespace DispatchSite

/-- Sends a message from the site, in at most `fuel` steps. A foreign message
that is sent on goes through the nested site of its branch. -/
def callWithin : Nat → DispatchSite → Machine → Send → Option (Outcome × Machine × DispatchSite)
  | 0, _, _, _ => none
  | fuel + 1, site, m, s =>
    let (method?, lookup) := site.lookup.find m s.receiver s.name
    match method?, s.receiver with
    | none, .foreign f =>
      (site.foreign.callWith natives fuel (callWithin fuel) m f s.name s.args).map
        fun (outcome, m, foreign) => (outcome, m, ⟨lookup, foreign⟩)
    | _, _ =>
      (Machine.settle natives fuel (Machine.answerWith natives m method? s)).map fun (outcome, m) =>
        (outcome, m, ⟨lookup, site.foreign⟩)

/-- Sends a message from the site. -/
def call (site : DispatchSite) (m : Machine) (s : Send) :
    Option (Outcome × Machine × DispatchSite) :=
  callWithin natives (m.stepBudget s.args) site m s

end DispatchSite

/-- Sends a message to a foreign object from a foreign site. -/
def ForeignSite.call (site : ForeignSite) (m : Machine) (f : ForeignId) (name : String)
    (args : List Value) : Option (Outcome × Machine × ForeignSite) :=
  let fuel := m.stepBudget args
  site.callWith natives fuel (DispatchSite.callWithin natives fuel) m f name args

/-- The names and classes of send that a foreign site remembers, oldest first. -/
def ForeignSite.remembered (site : ForeignSite) : List (String × OutgoingCall) :=
  site.branches.entries.map fun b => (b.name, b.call)

end ObjectModel
