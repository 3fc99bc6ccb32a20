/-
Remembered types are the present ones.

A site for logical types and one for meta types serve any values in any order,
while the registry evolves around them. Each answers what the value's type is at
that moment (`resolve_eq_of_run`): a rule for a kind reads the header of an
object anew, and an object that is remembered by identity keeps its singleton
type for ever. It does not matter which entries the sites kept, so neither do
their limits.

The two types of a value are different exactly if the value is foreign or an
object with a singleton type, because a singleton type is further down than the
class of its object.
-/
import ObjectModel.Proofs.Registry.Mirror
import ObjectModel.Proofs.Site.Coherence
import ObjectModel.Run

namespace ObjectModel

variable {r : Registry} {m : Machine}

-- =============================================================== logical types

namespace LogicalTypeSite

variable {site : LogicalTypeSite}

/-- All rules say how logical types of their kinds are read. -/
def Coherent (site : LogicalTypeSite) : Prop :=
  site.kinds.All (KindRule.SoundFor Core.foreignObject)

theorem coherent_fresh (limits : CacheLimits) : (fresh limits).Coherent :=
  GuardChain.all_empty _

/-- A coherent site answers the logical type. -/
theorem resolve_eq (coherent : site.Coherent) (m : Machine) (v : Value) :
    (site.resolve m v).1 = m.logicalType v ∧ (site.resolve m v).2.Coherent := by
  unfold resolve
  split
  · next t h =>
    obtain ⟨rule, mem, hrule⟩ := GuardChain.exists_of_findMap? h
    exact ⟨(coherent rule mem).typeOf?_eq Machine.reads_logicalType hrule, coherent⟩
  · refine ⟨rfl, GuardChain.All.install coherent ?_⟩
    exact KindRule.soundFor_learn Machine.reads_logicalType m v

end LogicalTypeSite

-- ======================================================== where the types differ

/-- A value whose meta type is not its logical type: a foreign one, or an object
with a singleton type. -/
def Registry.Distinguished (r : Registry) (v : Value) : Prop :=
  (∃ f, v = .foreign f) ∨ ∃ o s, v = .object o ∧ (r.cell o).singleton = some s

theorem Machine.logicalType_ne_metaType_iff (reachable : m.registry.Reachable) (v : Value) :
    m.logicalType v ≠ m.metaType v ↔ m.registry.Distinguished v := by
  cases v with
  | object o =>
      cases hs : (m.registry.cell o).singleton with
      | some s =>
          have hrank := reachable.mirrored.chainRank_lt reachable.wellFormed hs
          refine iff_of_true (fun heq => ?_) (.inr ⟨o, s, rfl, hs⟩)
          rw [metaType_of_singleton hs] at heq
          rw [show (m.registry.cell o).logicalType = s from heq] at hrank
          exact Nat.lt_irrefl _ hrank
      | none =>
          have hsame : m.logicalType (.object o) = m.metaType (.object o) := by
            show _ = (m.registry.cell o).singleton.getD _
            rw [hs]
            rfl
          refine iff_of_false (fun hne => hne hsame) ?_
          rintro (⟨f, ⟨⟩⟩ | ⟨p, s, ⟨⟩, hp⟩)
          rw [hs] at hp
          cases hp
  | foreign f =>
      have hne : Core.foreignObject ≠ Core.foreign := by decide
      exact iff_of_true hne (.inl ⟨f, rfl⟩)
  | bool b =>
      have hsame : m.logicalType (.bool b) = m.metaType (.bool b) := by cases b <;> rfl
      refine iff_of_false (fun hne => hne hsame) ?_
      rintro (⟨f, ⟨⟩⟩ | ⟨p, s, ⟨⟩, -⟩)
  | _ =>
      refine iff_of_false (fun hne => hne rfl) ?_
      rintro (⟨f, ⟨⟩⟩ | ⟨p, s, ⟨⟩, -⟩)

-- ==================================================================== a run

/-- A machine, with a site for logical types and one for meta types. -/
structure TypeSites where
  machine : Machine
  logical : LogicalTypeSite
  metas : MetaTypeSite

namespace TypeSites

variable {s : TypeSites}

def fresh (m : Machine) (limits : CacheLimits) : TypeSites := ⟨m, .fresh limits, .fresh limits⟩

/-- A type is asked for, of any value, or the registry changes. -/
inductive Action where
  | logicalType (v : Value)
  | metaType (v : Value)
  | operate (op : Operation)

def act (s : TypeSites) : Action → TypeSites
  | .logicalType v => { s with logical := (s.logical.resolve s.machine v).2 }
  | .metaType v => { s with metas := (s.metas.resolve s.machine v).2 }
  | .operate op =>
    { s with machine := { s.machine with registry := op.apply s.machine.registry } }

def run (s : TypeSites) (actions : List Action) : TypeSites := actions.foldl act s

/-- Any value may be asked for, and an operation has to be valid. -/
def Action.Valid (s : TypeSites) : Action → Prop
  | .logicalType _ | .metaType _ => True
  | .operate op => op.Valid s.machine.registry

instance (s : TypeSites) (x : Action) : Decidable (x.Valid s) :=
  match x with
  | .logicalType _ | .metaType _ => .isTrue trivial
  | .operate op => inferInstanceAs (Decidable (op.Valid s.machine.registry))

/-- The registry is reachable, and both sites are coherent. -/
structure Coherent (s : TypeSites) : Prop where
  reachable : s.machine.registry.Reachable
  logical : s.logical.Coherent
  metas : s.metas.Coherent s.machine.registry

theorem coherent_fresh (reachable : m.registry.Reachable) (limits : CacheLimits) :
    (fresh m limits).Coherent where
  reachable := reachable
  logical := LogicalTypeSite.coherent_fresh limits
  metas := MetaTypeSite.coherent_fresh limits

/-- A resolution leaves a coherent site, and an operation, a request for a
singleton type like any other, leaves true what the sites remember. -/
theorem Coherent.act (coherent : s.Coherent) {x : Action} (valid : x.Valid s) :
    (s.act x).Coherent := by
  cases x with
  | logicalType v =>
      exact { coherent with
        logical := (LogicalTypeSite.resolve_eq coherent.logical s.machine v).2 }
  | metaType v =>
      exact { coherent with metas := (MetaTypeSite.resolve_eq coherent.metas v).2 }
  | operate op =>
      exact
        { reachable := .step op coherent.reachable valid
          logical := coherent.logical
          metas := coherent.metas.of_grows (.apply coherent.reachable.wellFormed op) }

/-- After any run both sites answer the types that any value has at that moment,
and the types differ exactly for foreign values and objects with a singleton
type. -/
theorem resolve_eq_of_run (reachable : m.registry.Reachable) (limits : CacheLimits)
    {actions : List Action} (valid : Along act Action.Valid (fresh m limits) actions)
    (v : Value) :
    let s := (fresh m limits).run actions
    (s.logical.resolve s.machine v).1 = s.machine.logicalType v
      ∧ (s.metas.resolve s.machine v).1 = s.machine.metaType v
      ∧ (s.machine.logicalType v ≠ s.machine.metaType v
          ↔ s.machine.registry.Distinguished v) := by
  intro s
  have hcoherent : s.Coherent :=
    valid.keeps (fun _ _ coherent valid => coherent.act valid) (coherent_fresh reachable limits)
  exact ⟨(LogicalTypeSite.resolve_eq hcoherent.logical s.machine v).1,
    (MetaTypeSite.resolve_eq hcoherent.metas v).1,
    Machine.logicalType_ne_metaType_iff hcoherent.reachable v⟩

/-- Sites that keep one entry each meet an object before and after it gets a
singleton type. Another kind of values is one too many for them, and so is
another object with a singleton type. -/
def meetings : List Action :=
  [.logicalType (.object ⟨2⟩), .metaType (.object ⟨2⟩), .operate (.makeSingleton ⟨2⟩),
    .metaType (.object ⟨2⟩), .metaType (.object ⟨1⟩), .logicalType .nil, .metaType .nil,
    .operate (.makeSingleton ⟨3⟩)]

/-- The sites have given up, and answer the object's types. -/
theorem resolve_eq_of_meetings :
    let first := fresh { (default : Machine) with registry := .initial } ⟨1, 1, 1, 1, 1⟩
    let s := first.run meetings
    Registry.initial.Reachable ∧ Along act Action.Valid first meetings
      ∧ s.logical.kinds.megamorphic = true ∧ s.metas.identities.megamorphic = true
      ∧ s.metas.kinds.megamorphic = true
      ∧ (s.logical.resolve s.machine (.object ⟨2⟩)).1 = s.machine.logicalType (.object ⟨2⟩)
      ∧ (s.metas.resolve s.machine (.object ⟨2⟩)).1 = s.machine.metaType (.object ⟨2⟩)
      ∧ (s.machine.logicalType (.object ⟨2⟩) ≠ s.machine.metaType (.object ⟨2⟩)
          ↔ s.machine.registry.Distinguished (.object ⟨2⟩)) := by
  intro first s
  have reachable : Registry.initial.Reachable := .refl _
  have valid : Along act Action.Valid first meetings := by decide +kernel
  refine ⟨reachable, valid, by decide +kernel, by decide +kernel, by decide +kernel, ?_⟩
  exact resolve_eq_of_run reachable _ valid (.object ⟨2⟩)

end TypeSites

end ObjectModel
