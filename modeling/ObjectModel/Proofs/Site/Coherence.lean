/-
What call sites remember is true.

Every entry of every cache is coherent with the registry: a rule for a kind
says what the kind says, an identity names the singleton type that the object
has, and a remembered method is the one that would be found, as long as the
epoch is the entry's. A fresh site is coherent, a coherent site answers what an
uncached resolution answers and is coherent afterwards, and it stays coherent
while the registry evolves, because identities are never taken back and the
epoch is a sound token for lookups.

The sites nest: a dispatch site has a foreign side, whose branches own dispatch
sites and operator sites. Coherence follows the nesting.
-/
import ObjectModel.Proofs.Machine.Evolution
import ObjectModel.Proofs.Registry.Lookup
import ObjectModel.Proofs.Site.Chain
import ObjectModel.Site.Dispatch

namespace ObjectModel

variable {r r' : Registry} {m : Machine}

-- ============================================================== rules for kinds

/-- A type is read off a value: objects have it in their headers, all others
have the one of their kind. -/
structure Machine.Reads (header : HeapObject → TypeId) (foreign : TypeId)
    (typeOf : Machine → Value → TypeId) : Prop where
  of_object : ∀ (m : Machine) (o : ObjectId), typeOf m (.object o) = header (m.registry.cell o)
  of_kind : ∀ (m : Machine) {v : Value}, v.kind ≠ .object →
    typeOf m v = kindType v.kind foreign

theorem Machine.reads_logicalType :
    Reads HeapObject.logicalType Core.foreignObject Machine.logicalType where
  of_object _ _ := rfl
  of_kind m v ne := by
    cases v with
    | object o => exact absurd rfl ne
    | _ => rfl

theorem Machine.reads_metaType : Reads HeapObject.metaType Core.foreign Machine.metaType where
  of_object _ _ := rfl
  of_kind m v ne := by
    cases v with
    | object o => exact absurd rfl ne
    | _ => rfl

namespace KindRule

variable {header : HeapObject → TypeId} {foreign : TypeId} {typeOf : Machine → Value → TypeId}

/-- The rule says how types of its kind are read. -/
def SoundFor (foreign : TypeId) (rule : KindRule) : Prop :=
  rule.resolution
    = if rule.kind = .object then .header else .fixed (Machine.kindType rule.kind foreign)

theorem soundFor_learn (reads : Machine.Reads header foreign typeOf) (m : Machine) (v : Value) :
    (learn v (typeOf m v)).SoundFor foreign := by
  unfold SoundFor learn
  dsimp only
  split
  · rfl
  · next ne => rw [reads.of_kind m ne]

/-- A hit of a sound rule is the type. -/
theorem SoundFor.typeOf?_eq (reads : Machine.Reads header foreign typeOf) {rule : KindRule}
    (sound : rule.SoundFor foreign) {v : Value} {t : TypeId}
    (h : rule.typeOf? m header v = some t) : t = typeOf m v := by
  unfold SoundFor at sound
  unfold typeOf? at h
  split at h
  · next hkind =>
    rw [sound, ← hkind] at h
    by_cases hobject : v.kind = .object
    · rw [if_pos hobject] at h
      cases v with
      | object o =>
          cases h
          exact (reads.of_object m o).symm
      | bool b => cases b <;> cases hobject
      | _ => cases hobject
    · rw [if_neg hobject] at h
      cases h
      exact (reads.of_kind m hobject).symm
  · cases h

end KindRule

-- ================================================================== meta types

/-- The rule says how meta types of its kind are found. -/
def KindRule.Sound (rule : KindRule) : Prop :=
  rule.resolution
    = if rule.kind = .object then .header else .fixed (Machine.kindType rule.kind Core.foreign)

/-- The object has this singleton type. -/
def IdentityRule.Sound (r : Registry) (rule : IdentityRule) : Prop :=
  (r.cell rule.object).singleton = some rule.singleton

structure MetaTypeSite.Coherent (r : Registry) (site : MetaTypeSite) : Prop where
  identities : site.identities.All (IdentityRule.Sound r)
  kinds : site.kinds.All KindRule.Sound

/-- The meta type of a value that is no object is that of its kind. -/
theorem Machine.metaType_of_kind_ne (m : Machine) {v : Value} (ne : v.kind ≠ .object) :
    m.metaType v = kindType v.kind Core.foreign :=
  reads_metaType.of_kind m ne

/-- The meta type of an object with a singleton type is that type. -/
theorem Machine.metaType_of_singleton {o : ObjectId} {t : TypeId}
    (h : (m.registry.cell o).singleton = some t) : m.metaType (.object o) = t := by
  show (m.registry.cell o).singleton.getD _ = t
  rw [h]
  rfl

theorem KindRule.sound_learn (m : Machine) (v : Value) :
    (KindRule.learn v (m.metaType v)).Sound :=
  soundFor_learn Machine.reads_metaType m v

/-- A hit of a sound rule is the meta type. -/
theorem KindRule.Sound.typeOf?_eq {rule : KindRule} (sound : rule.Sound) {v : Value} {t : TypeId}
    (h : rule.typeOf? m HeapObject.metaType v = some t) : t = m.metaType v :=
  SoundFor.typeOf?_eq Machine.reads_metaType sound h

namespace MetaTypeSite

variable {site : MetaTypeSite}

theorem coherent_fresh (limits : CacheLimits) : (fresh limits).Coherent r where
  identities := GuardChain.all_empty _
  kinds := GuardChain.all_empty _

theorem resolveByKind_eq (coherent : site.Coherent m.registry) (v : Value) :
    (site.resolveByKind m v).1 = m.metaType v
      ∧ (site.resolveByKind m v).2.Coherent m.registry := by
  unfold resolveByKind
  split
  · next t h =>
    obtain ⟨rule, mem, hrule⟩ := GuardChain.exists_of_findMap? h
    exact ⟨(coherent.kinds rule mem).typeOf?_eq hrule, coherent⟩
  · refine ⟨rfl, { identities := coherent.identities, kinds := ?_ }⟩
    exact coherent.kinds.install (KindRule.sound_learn m v)

/-- A coherent site answers the meta type. -/
theorem resolve_eq (coherent : site.Coherent m.registry) (v : Value) :
    (site.resolve m v).1 = m.metaType v ∧ (site.resolve m v).2.Coherent m.registry := by
  unfold resolve
  split
  · next o =>
    dsimp only
    split
    · next t h =>
      obtain ⟨rule, mem, hrule⟩ := GuardChain.exists_of_findMap? h
      have hsound := coherent.identities rule mem
      split at hrule
      · next hobject =>
        cases hrule
        subst hobject
        exact ⟨(Machine.metaType_of_singleton hsound).symm, coherent⟩
      · cases hrule
    · next t h hs =>
      exact ⟨(Machine.metaType_of_singleton hs).symm,
        { identities := coherent.identities.install hs, kinds := coherent.kinds }⟩
    · exact resolveByKind_eq coherent _
  · exact resolveByKind_eq coherent _

theorem Coherent.of_grows (coherent : site.Coherent r) (grows : r.Grows r') :
    site.Coherent r' where
  identities := coherent.identities.imp fun _ sound => grows.singleton_some sound
  kinds := coherent.kinds

end MetaTypeSite

-- ============================================================ methods found

/-- What was remembered would be found again while the epoch is the entry's. -/
structure LookupEntry.Sound (r : Registry) (e : LookupEntry) : Prop where
  has : r.Has e.metaType
  epoch_le : e.epoch ≤ r.epoch
  current : e.epoch = r.epoch → e.method? = r.findMethod? e.metaType e.name

/-- The epoch is a sound token. -/
theorem LookupEntry.Sound.of_grows {e : LookupEntry} (sound : e.Sound r) (wf : r.WellFormed)
    (grows : r.Grows r') : e.Sound r' where
  has := grows.has sound.has
  epoch_le := Nat.le_trans sound.epoch_le grows.epoch_le
  current h := by
    -- an entry of the present epoch was of the epoch before as well
    have hle := sound.epoch_le
    have hle' := grows.epoch_le
    have hbefore : e.epoch = r.epoch := by omega
    rw [wf.findMethod?_eq_of_epoch grows (by omega) sound.has]
    exact sound.current hbefore

structure LookupSite.Coherent (r : Registry) (site : LookupSite) : Prop where
  types : site.types.Coherent r
  lookups : site.lookups.All (LookupEntry.Sound r)

/-- The meta type of any value is there. -/
theorem Machine.has_metaType (equipped : m.registry.Equipped) (v : Value) :
    m.registry.Has (m.metaType v) := by
  cases v with
  | object o => exact equipped.wellFormed.has_metaType o
  | bool b =>
      cases b
      · exact equipped.has_core (t := Core.falseClass) (by decide)
      · exact equipped.has_core (t := Core.trueClass) (by decide)
  | _ => exact equipped.has_core (by simp [metaType, kindType, Value.kind])

namespace LookupSite

variable {site : LookupSite}

theorem coherent_fresh (limits : CacheLimits) : (fresh limits).Coherent r where
  types := MetaTypeSite.coherent_fresh limits
  lookups := GuardChain.all_empty _

theorem methodFrom_eq {lookups : GuardChain LookupEntry} {t : TypeId}
    (sound : lookups.All (LookupEntry.Sound m.registry)) (has : m.registry.Has t)
    (name : String) :
    (methodFrom lookups m t name).1 = m.registry.findMethod? t name
      ∧ (methodFrom lookups m t name).2.All (LookupEntry.Sound m.registry) := by
  unfold methodFrom
  dsimp only
  split
  · next method? h =>
    obtain ⟨e, mem, he⟩ := GuardChain.exists_of_findMap? h
    split at he
    · next hkey =>
      obtain ⟨rfl, hepoch, rfl⟩ := hkey
      cases he
      exact ⟨(sound e mem).current hepoch, sound⟩
    · cases he
  · exact ⟨rfl, sound.retain.install ⟨has, Nat.le_refl _, fun _ => rfl⟩⟩

/-- A coherent site finds what an uncached lookup finds. -/
theorem find_eq (coherent : site.Coherent m.registry) (equipped : m.registry.Equipped)
    (receiver : Value) (name : String) :
    (site.find m receiver name).1 = m.lookup? receiver name
      ∧ (site.find m receiver name).2.Coherent m.registry := by
  obtain ⟨htype, htypes⟩ := MetaTypeSite.resolve_eq coherent.types receiver
  have has : m.registry.Has (site.types.resolve m receiver).1 := by
    rw [htype]
    exact Machine.has_metaType equipped receiver
  obtain ⟨hmethod, hlookups⟩ := methodFrom_eq coherent.lookups has name
  refine ⟨?_, { types := htypes, lookups := hlookups }⟩
  unfold Machine.lookup?
  rw [← htype]
  exact hmethod

theorem Coherent.of_grows (coherent : site.Coherent r) (wf : r.WellFormed)
    (grows : r.Grows r') : site.Coherent r' where
  types := coherent.types.of_grows grows
  lookups := coherent.lookups.imp fun _ sound => sound.of_grows wf grows

end LookupSite

-- ================================================================ nested sites

def OperatorSite.Coherent (r : Registry) (site : OperatorSite) : Prop :=
  site.kinds.All fun b => b.site.Coherent r

mutual

inductive DispatchSite.Coherent (r : Registry) : DispatchSite → Prop
  | intro {site : DispatchSite} (lookup : site.lookup.Coherent r)
      (foreign : ForeignSite.Coherent r site.foreign) : DispatchSite.Coherent r site

inductive ForeignSite.Coherent (r : Registry) : ForeignSite → Prop
  | intro {site : ForeignSite}
      (branches : ∀ b ∈ site.branches.entries, ForeignBranch.Coherent r b) :
      ForeignSite.Coherent r site

/-- A branch that goes on to an operator's site is a branch for operators. -/
inductive ForeignBranch.Coherent (r : Registry) : ForeignBranch → Prop
  | direct {b : ForeignBranch} (nested : b.nested = .none) : ForeignBranch.Coherent r b
  | send {b : ForeignBranch} {site : DispatchSite} (nested : b.nested = .send site)
      (coherent : DispatchSite.Coherent r site) : ForeignBranch.Coherent r b
  | operator {b : ForeignBranch} {site : OperatorSite} (nested : b.nested = .operator site)
      (call : b.call = .operator) (coherent : site.Coherent r) : ForeignBranch.Coherent r b

end

theorem OperatorSite.Coherent.of_grows {site : OperatorSite} (wf : r.WellFormed)
    (grows : r.Grows r') (coherent : site.Coherent r) : site.Coherent r' :=
  GuardChain.All.imp coherent fun _ inner => inner.of_grows wf grows

mutual

/-- Coherence survives growth, by induction on how the sites nest. -/
theorem DispatchSite.Coherent.of_grows (wf : r.WellFormed) (grows : r.Grows r') :
    ∀ {site : DispatchSite}, site.Coherent r → site.Coherent r'
  | _, .intro lookup foreign => .intro (lookup.of_grows wf grows) (foreign.of_grows wf grows)

theorem ForeignSite.Coherent.of_grows (wf : r.WellFormed) (grows : r.Grows r') :
    ∀ {site : ForeignSite}, site.Coherent r → site.Coherent r'
  | _, .intro branches => .intro fun b mem => (branches b mem).of_grows wf grows

theorem ForeignBranch.Coherent.of_grows (wf : r.WellFormed) (grows : r.Grows r') :
    ∀ {b : ForeignBranch}, b.Coherent r → b.Coherent r'
  | _, .direct nested => .direct nested
  | _, .send nested coherent => .send nested (coherent.of_grows wf grows)
  | _, .operator nested call coherent => .operator nested call (coherent.of_grows wf grows)

end

-- =============================================================== fresh sites

theorem OperatorSite.coherent_fresh (limits : CacheLimits) : (fresh limits).Coherent r :=
  GuardChain.all_empty _

theorem ForeignSite.coherent_fresh (limits : CacheLimits) : (fresh limits).Coherent r :=
  .intro (GuardChain.all_empty _)

theorem DispatchSite.coherent_fresh (limits : CacheLimits) : (fresh limits).Coherent r :=
  .intro (LookupSite.coherent_fresh limits) (ForeignSite.coherent_fresh limits)

theorem ForeignBranch.coherent_fresh (limits : CacheLimits) (name : String)
    (call : OutgoingCall) : (fresh limits name call).Coherent r := by
  cases call with
  | send => exact .send rfl (DispatchSite.coherent_fresh limits)
  | operator => exact .operator rfl rfl (OperatorSite.coherent_fresh limits)
  | _ => exact .direct rfl

end ObjectModel
