/-
How full the caches of a site are.

A chain is offered keys: every time a site is asked, the key of the question is
offered to a chain of it. Whether the question is a hit, a miss that is taken
in, a miss that is there already or one that is too many, afterwards the chain
holds exactly the distinct keys that it was ever offered, in the order in which
they came first, until they are more than its limit; then it is empty for ever
(`GuardChain.Holds`). So a chain that a hit passes by is in the state that it
would be in if every key had been installed.

The chain of remembered methods is the exception, because a miss drops what is
stale: it holds what was looked up since the epoch last changed
(`GuardChain.HoldsLookups`). It gives up if that was ever too much, and an epoch
never comes again, so no number of redefinitions is too much.

An identity or a kind is offered by the values that reach its tier: the first
tier of a site for meta types is for objects with singleton types, and these
never get to the second one, even when the first has been abandoned.
-/
import ObjectModel.Proofs.Distinct
import ObjectModel.Proofs.Site.Coherence

namespace ObjectModel

universe u v

-- ================================================================ histories

/-- What was asked of a site, oldest first, with the machines that were there. -/
abbrev History (α : Type) := List (Machine × α)

namespace History

variable {α β κ : Type} [DecidableEq κ] {keyOf : Machine × α → κ} {history : History α}
  {q : Machine × α}

/-- What some of the questions led to. -/
def collect (f : Machine → α → Option β) (history : History α) : List β :=
  history.filterMap fun q => f q.1 q.2

theorem collect_concat_of_some {f : Machine → α → Option β} {m : Machine} {x : α} {y : β}
    (h : f m x = some y) : collect f (history ++ [(m, x)]) = history.collect f ++ [y] := by
  simp [collect, h]

theorem collect_concat_of_none {f : Machine → α → Option β} {m : Machine} {x : α}
    (h : f m x = none) : collect f (history ++ [(m, x)]) = history.collect f := by
  simp [collect, h]

/-- The questions of one key. -/
def withKey (keyOf : Machine × α → κ) (k : κ) (history : History α) : History α :=
  history.filter (keyOf · = k)

theorem withKey_concat_self :
    withKey keyOf (keyOf q) (history ++ [q]) = history.withKey keyOf (keyOf q) ++ [q] := by
  simp [withKey]

theorem withKey_concat_of_ne {k : κ} (ne : k ≠ keyOf q) :
    withKey keyOf k (history ++ [q]) = history.withKey keyOf k := by
  simp [withKey, Ne.symm ne]

theorem withKey_eq_nil {k : κ} (fresh : k ∉ history.map keyOf) : history.withKey keyOf k = [] := by
  refine List.filter_eq_nil_iff.mpr fun q mem hq => fresh ?_
  rw [← of_decide_eq_true hq]
  exact List.mem_map_of_mem mem

end History

-- =================================================================== chains

namespace GuardChain

variable {ε : Type u} {ρ : Type v} {κ : Type} [DecidableEq κ] {key : ε → κ} {limit : Nat}
  {offered : List κ} {chain : GuardChain ε}

/-- What a chain holds by the keys that it was offered: the distinct ones, until
they are more than its limit, and nothing from then on. -/
structure Holds (key : ε → κ) (limit : Nat) (offered : List κ) (chain : GuardChain ε) :
    Prop where
  limit_eq : chain.limit = limit
  kept : (firstSeen offered).length ≤ limit →
    chain.megamorphic = false ∧ chain.entries.map key = firstSeen offered
  overflown : ∀ early, early <+: offered → limit < (firstSeen early).length →
    chain.megamorphic = true ∧ chain.entries = []

namespace Holds

/-- Only what was offered in the end has to be looked at: more was never too
much before. -/
theorem of_now (limit_eq : chain.limit = limit)
    (kept : (firstSeen offered).length ≤ limit →
      chain.megamorphic = false ∧ chain.entries.map key = firstSeen offered)
    (overflown : limit < (firstSeen offered).length →
      chain.megamorphic = true ∧ chain.entries = []) : chain.Holds key limit offered where
  limit_eq := limit_eq
  kept := kept
  overflown _ before many :=
    overflown (Nat.lt_of_lt_of_le many (length_firstSeen_le_of_subset before.subset))

theorem empty (key : ε → κ) (limit : Nat) : (empty limit).Holds key limit [] :=
  .of_now rfl (fun _ => ⟨rfl, rfl⟩) fun many => absurd many (Nat.not_lt_zero _)

variable (holds : chain.Holds key limit offered)

include holds

theorem megamorphic_iff : chain.megamorphic = true ↔ limit < (firstSeen offered).length := by
  refine ⟨fun hmega => ?_, fun many => (holds.overflown offered (List.prefix_refl _) many).1⟩
  refine Nat.lt_of_not_le fun few => ?_
  rw [(holds.kept few).1] at hmega
  cases hmega

theorem keys_eq (sparse : chain.megamorphic = false) :
    chain.entries.map key = firstSeen offered := by
  refine (holds.kept (Nat.le_of_not_lt fun many => ?_)).2
  rw [holds.megamorphic_iff.mpr many] at sparse
  cases sparse

/-- The key of an entry was offered. -/
theorem key_mem {e : ε} (mem : e ∈ chain.entries) : key e ∈ offered := by
  cases hmega : chain.megamorphic with
  | false =>
      have hkey := List.mem_map_of_mem (f := key) mem
      rwa [holds.keys_eq hmega, mem_firstSeen] at hkey
  | true =>
      have many := holds.megamorphic_iff.mp hmega
      rw [(holds.overflown offered (List.prefix_refl _) many).2] at mem
      cases mem

/-- A key that was offered before, or that comes too late, changes nothing. -/
theorem again {k : κ} (known : k ∈ offered ∨ chain.megamorphic = true) :
    chain.Holds key limit (offered ++ [k]) := by
  by_cases old : k ∈ offered
  · refine .of_now holds.limit_eq ?_ ?_
    · rw [firstSeen_concat_of_mem old]
      exact holds.kept
    · rw [firstSeen_concat_of_mem old]
      exact holds.overflown offered (List.prefix_refl _)
  · have many := holds.megamorphic_iff.mp (known.resolve_left old)
    have hmore : (firstSeen offered).length ≤ (firstSeen (offered ++ [k])).length :=
      length_firstSeen_le_of_subset (List.subset_append_left _ _)
    exact .of_now holds.limit_eq
      (fun few => absurd (Nat.lt_of_lt_of_le many hmore) (Nat.not_lt_of_le few))
      fun _ => holds.overflown offered (List.prefix_refl _) many

/-- A hit is of a key that was offered before. -/
theorem of_hit {probe : ε → Option ρ} {found : ρ} {k : κ}
    (hit : chain.findMap? probe = some found)
    (guarded : ∀ e, probe e = some found → key e = k) :
    chain.Holds key limit (offered ++ [k]) := by
  obtain ⟨e, mem, he⟩ := exists_of_findMap? hit
  refine holds.again (.inl ?_)
  rw [← guarded e he]
  exact holds.key_mem mem

/-- A miss is of a key that was not offered before. -/
theorem notMem_of_miss {probe : ε → Option ρ} {k : κ} (miss : chain.findMap? probe = none)
    (sparse : chain.megamorphic = false) (guarded : ∀ e, key e = k → probe e ≠ none) :
    k ∉ offered := by
  intro old
  rw [← mem_firstSeen, ← holds.keys_eq sparse] at old
  obtain ⟨e, mem, he⟩ := List.mem_map.mp old
  unfold findMap? at miss
  rw [sparse] at miss
  exact guarded e he (List.findSome?_eq_none_iff.mp miss e mem)

/-- A miss that is offered. -/
theorem install {same : ε → ε → Bool} (entry : ε)
    (same_iff : ∀ e ∈ chain.entries, same e entry = true ↔ key e = key entry) :
    (chain.install same entry).2.Holds key limit (offered ++ [key entry]) := by
  unfold GuardChain.install
  split
  · next hmega => exact holds.again (.inr hmega)
  · next hsparse =>
    have hkeys := holds.keys_eq (Bool.eq_false_of_not_eq_true hsparse)
    have hcount : chain.entries.length = (firstSeen offered).length := by
      rw [← hkeys, List.length_map]
    split
    · next hany =>
      obtain ⟨e, mem, he⟩ := List.any_eq_true.mp hany
      refine holds.again (.inl ?_)
      rw [← (same_iff e mem).mp he]
      exact holds.key_mem mem
    · next hnone =>
      have fresh : key entry ∉ offered := by
        rw [← mem_firstSeen, ← hkeys, List.mem_map]
        rintro ⟨e, mem, he⟩
        exact hnone (List.any_eq_true.mpr ⟨e, mem, (same_iff e mem).mpr he⟩)
      have hone : (firstSeen (offered ++ [key entry])).length = chain.entries.length + 1 := by
        rw [firstSeen_concat_of_notMem fresh, List.length_append, ← hcount]
        rfl
      have hlimit := holds.limit_eq
      split
      · exact .of_now hlimit (fun few => absurd few (by omega)) fun _ => ⟨rfl, rfl⟩
      · refine .of_now hlimit (fun _ => ⟨Bool.eq_false_of_not_eq_true hsparse, ?_⟩)
          fun many => absurd many (by omega)
        rw [firstSeen_concat_of_notMem fresh, List.map_append, hkeys]
        rfl

/-- Entries may change, but not their keys. -/
theorem revise {change : ε → ε} (same : ∀ e, key (change e) = key e) :
    (chain.revise change).Holds key limit offered where
  limit_eq := holds.limit_eq
  kept few := by
    obtain ⟨hsparse, hkeys⟩ := holds.kept few
    refine ⟨hsparse, ?_⟩
    rw [← hkeys]
    show (chain.entries.map change).map key = _
    rw [List.map_map]
    exact List.map_congr_left fun e _ => same e
  overflown early before many := by
    obtain ⟨hmega, hempty⟩ := holds.overflown early before many
    refine ⟨hmega, ?_⟩
    show chain.entries.map change = []
    rw [hempty]
    rfl

end Holds

/-- A chain with an entry for each key, each of which knows the questions of its
key and no others. -/
structure Nests {α : Type} (keyOf : Machine × α → κ) (key : ε → κ)
    (Knows : History α → ε → Prop) (limit : Nat) (history : History α) (chain : GuardChain ε) :
    Prop where
  holds : chain.Holds key limit (history.map keyOf)
  inner : ∀ e ∈ chain.entries, Knows (history.withKey keyOf (key e)) e

namespace Nests

variable {α : Type} {keyOf : Machine × α → κ} {Knows : History α → ε → Prop}
  {history : History α} {q : Machine × α}

theorem empty (keyOf : Machine × α → κ) (key : ε → κ) (Knows : History α → ε → Prop)
    (limit : Nat) : (empty limit).Nests keyOf key Knows limit [] where
  holds := .empty _ _
  inner := all_empty _

/-- After a question more, the entry of its key knows it too. -/
theorem concat (holds : chain.Holds key limit (history.map keyOf ++ [keyOf q]))
    (own : ∀ e ∈ chain.entries, key e = keyOf q →
      Knows (history.withKey keyOf (keyOf q) ++ [q]) e)
    (others : ∀ e ∈ chain.entries, key e ≠ keyOf q → Knows (history.withKey keyOf (key e)) e) :
    chain.Nests keyOf key Knows limit (history ++ [q]) where
  holds := by
    rw [List.map_append]
    exact holds
  inner e mem := by
    by_cases heq : key e = keyOf q
    · rw [heq, History.withKey_concat_self]
      exact own e mem heq
    · rw [History.withKey_concat_of_ne heq]
      exact others e mem heq

/-- Entries that change keep their keys, and only the one of the key changes. -/
theorem revise (holds : chain.Holds key limit (history.map keyOf ++ [keyOf q])) {change : ε → ε}
    (same : ∀ e, key (change e) = key e)
    (own : ∀ e ∈ chain.entries, key e = keyOf q →
      Knows (history.withKey keyOf (keyOf q) ++ [q]) (change e))
    (others : ∀ e ∈ chain.entries, key e ≠ keyOf q →
      Knows (history.withKey keyOf (key e)) (change e)) :
    (chain.revise change).Nests keyOf key Knows limit (history ++ [q]) := by
  refine concat (holds.revise same) (fun e' mem heq => ?_) fun e' mem hne => ?_
  · obtain ⟨e, hold, rfl⟩ := List.mem_map.mp mem
    rw [same] at heq
    exact own e hold heq
  · obtain ⟨e, hold, rfl⟩ := List.mem_map.mp mem
    rw [same] at hne ⊢
    exact others e hold hne

/-- A chain that gave up has no entries that could know anything. -/
theorem of_megamorphic (nests : chain.Nests keyOf key Knows limit history)
    (hmega : chain.megamorphic = true) :
    chain.Nests keyOf key Knows limit (history ++ [q]) := by
  have many := nests.holds.megamorphic_iff.mp hmega
  have hempty := (nests.holds.overflown _ (List.prefix_refl _) many).2
  have hnone : ∀ e ∈ chain.entries, False := by
    rw [hempty]
    exact fun e mem => nomatch mem
  exact concat (nests.holds.again (.inr hmega)) (fun e mem => (hnone e mem).elim)
    fun e mem => (hnone e mem).elim

/-- A new entry knows all questions of its key: there were none. -/
theorem install (nests : chain.Nests keyOf key Knows limit history) (same : ε → ε → Bool)
    (entry : ε) (same_iff : ∀ e ∈ chain.entries, same e entry = true ↔ key e = key entry)
    (new : key entry ∉ history.map keyOf) (fresh : Knows [] entry) :
    (chain.install same entry).2.Holds key limit (history.map keyOf ++ [key entry])
      ∧ Knows (history.withKey keyOf (key entry)) entry
      ∧ (chain.install same entry).2.All fun e => Knows (history.withKey keyOf (key e)) e := by
  have hfresh : Knows (history.withKey keyOf (key entry)) entry := by
    rw [History.withKey_eq_nil new]
    exact fresh
  exact ⟨nests.holds.install entry same_iff, hfresh, All.install nests.inner hfresh⟩

end Nests

end GuardChain

-- ============================================================== logical types

/-- A rule that applies is for the kind of the value. -/
theorem KindRule.kind_eq_of_typeOf? {m : Machine} {header : HeapObject → TypeId}
    {rule : KindRule} {v : Value} {t : TypeId} (h : rule.typeOf? m header v = some t) :
    rule.kind = v.kind :=
  (Option.ite_none_right_eq_some.mp h).1.symm

theorem KindRule.same_iff (a b : KindRule) : a.same b = true ↔ a.kind = b.kind := beq_iff_eq

variable {limits : CacheLimits}

/-- A site for logical types keeps one rule for each kind of values. -/
structure LogicalTypeSite.Occupied (limits : CacheLimits) (history : History Value)
    (site : LogicalTypeSite) : Prop where
  kinds : site.kinds.Holds KindRule.kind limits.kinds (history.map (·.2.kind))

namespace LogicalTypeSite

variable {site : LogicalTypeSite} {history : History Value}

theorem occupied_fresh (limits : CacheLimits) : (fresh limits).Occupied limits [] where
  kinds := .empty _ _

theorem Occupied.resolve (occupied : site.Occupied limits history) (m : Machine) (v : Value) :
    (site.resolve m v).2.Occupied limits (history ++ [(m, v)]) where
  kinds := by
    rw [List.map_append]
    unfold LogicalTypeSite.resolve
    split
    · next hit => exact occupied.kinds.of_hit hit fun _ => KindRule.kind_eq_of_typeOf?
    · exact occupied.kinds.install (KindRule.learn v _) fun e _ => e.same_iff _

end LogicalTypeSite

-- ================================================================= meta types

/-- The object that a value is, if the object has a singleton type. -/
def Machine.distinguished? (m : Machine) : Value → Option ObjectId
  | .object o => if (m.registry.cell o).singleton.isSome then some o else none
  | _ => none

theorem Machine.distinguished?_object (m : Machine) (o : ObjectId) :
    m.distinguished? (.object o)
      = if (m.registry.cell o).singleton.isSome then some o else none := rfl

namespace History

/-- The objects with singleton types that were asked about. -/
def distinguished (history : History Value) : List ObjectId :=
  history.collect Machine.distinguished?

/-- The kinds of the other values that were asked about. -/
def plainKinds (history : History Value) : List ValueKind :=
  (history.filter fun q => (q.1.distinguished? q.2).isNone).map (·.2.kind)

variable {history : History Value} {m : Machine} {v : Value}

theorem plainKinds_concat_of_some {o : ObjectId} (h : m.distinguished? v = some o) :
    plainKinds (history ++ [(m, v)]) = history.plainKinds := by
  simp [plainKinds, h]

theorem plainKinds_concat_of_none (h : m.distinguished? v = none) :
    plainKinds (history ++ [(m, v)]) = history.plainKinds ++ [v.kind] := by
  simp [plainKinds, h]

end History

/-- A site for meta types keeps each object with a singleton type that it met,
and one rule for each kind of the other values. -/
structure MetaTypeSite.Occupied (limits : CacheLimits) (history : History Value)
    (site : MetaTypeSite) : Prop where
  identities : site.identities.Holds IdentityRule.object limits.identities history.distinguished
  kinds : site.kinds.Holds KindRule.kind limits.kinds history.plainKinds

theorem IdentityRule.same_iff (a b : IdentityRule) : a.same b = true ↔ a.object = b.object :=
  beq_iff_eq

namespace MetaTypeSite

variable {site : MetaTypeSite} {history : History Value} {m : Machine}

theorem occupied_fresh (limits : CacheLimits) : (fresh limits).Occupied limits [] where
  identities := .empty _ _
  kinds := .empty _ _

/-- A value without a singleton type of its own reaches the second tier. -/
theorem Occupied.resolveByKind (occupied : site.Occupied limits history) {v : Value}
    (plain : m.distinguished? v = none) :
    (site.resolveByKind m v).2.Occupied limits (history ++ [(m, v)]) := by
  unfold MetaTypeSite.resolveByKind
  split
  · next hit =>
    constructor
    · unfold History.distinguished
      rw [History.collect_concat_of_none plain]
      exact occupied.identities
    · rw [History.plainKinds_concat_of_none plain]
      exact occupied.kinds.of_hit hit fun _ => KindRule.kind_eq_of_typeOf?
  · constructor
    · unfold History.distinguished
      rw [History.collect_concat_of_none plain]
      exact occupied.identities
    · rw [History.plainKinds_concat_of_none plain]
      exact occupied.kinds.install (KindRule.learn v _) fun e _ => e.same_iff _

/-- A value with a singleton type of its own gets no further than the first. -/
theorem Occupied.identify (occupied : site.Occupied limits history) {v : Value} {o : ObjectId}
    (own : m.distinguished? v = some o) {identities : GuardChain IdentityRule}
    (holds : identities.Holds IdentityRule.object limits.identities
      (history.distinguished ++ [o])) :
    ({ site with identities } : MetaTypeSite).Occupied limits (history ++ [(m, v)]) where
  identities := by
    unfold History.distinguished
    rw [History.collect_concat_of_some own]
    exact holds
  kinds := by
    rw [History.plainKinds_concat_of_some own]
    exact occupied.kinds

/-- A question more. An object that is remembered by identity has a singleton
type still, so it counts as one that has. -/
theorem Occupied.resolve (occupied : site.Occupied limits history)
    (coherent : site.Coherent m.registry) (v : Value) :
    (site.resolve m v).2.Occupied limits (history ++ [(m, v)]) := by
  unfold MetaTypeSite.resolve
  split
  · next o =>
    dsimp only
    split
    · next t hit =>
      have hguard : ∀ rule : IdentityRule,
          (if rule.object = o then some rule.singleton else none) = some t →
            rule.object = o :=
        fun _ hrule => (Option.ite_none_right_eq_some.mp hrule).1
      obtain ⟨rule, mem, hrule⟩ := GuardChain.exists_of_findMap? hit
      have hown : m.distinguished? (.object o) = some o := by
        have hsound := coherent.identities rule mem
        unfold IdentityRule.Sound at hsound
        rw [hguard rule hrule] at hsound
        rw [Machine.distinguished?_object, hsound]
        rfl
      exact occupied.identify hown (occupied.identities.of_hit hit hguard)
    · next t _ hs =>
      have hown : m.distinguished? (.object o) = some o := by
        rw [Machine.distinguished?_object, hs]
        rfl
      exact occupied.identify hown
        (occupied.identities.install ⟨o, t⟩ fun e _ => e.same_iff _)
    · next _ hs =>
      refine occupied.resolveByKind ?_
      rw [Machine.distinguished?_object, hs]
      rfl
  · next v hnot =>
    refine occupied.resolveByKind ?_
    unfold Machine.distinguished?
    split
    · next o => exact absurd rfl (hnot o)
    · rfl

end MetaTypeSite

-- ============================================================== methods found

namespace History

variable {α : Type} {history : History α} {m : Machine} {x : α}

/-- The part of a history that is of one epoch. -/
def during (epoch : Nat) (history : History α) : History α :=
  history.withKey (·.1.registry.epoch) epoch

/-- The epoch of the last question. -/
def lastEpoch (history : History α) : Nat :=
  (history.getLast?.map fun q => q.1.registry.epoch).getD 0

/-- Epochs do not come back, so what is of one epoch is a stretch between two
changes of it. -/
def Ordered (history : History α) : Prop :=
  history.Pairwise fun q q' => q.1.registry.epoch ≤ q'.1.registry.epoch

/-- No question was asked after the epoch of a registry. -/
def Before (r : Registry) (history : History α) : Prop :=
  ∀ q ∈ history, q.1.registry.epoch ≤ r.epoch

/-- The meta types and names that methods were looked up for. -/
def pairs (history : History Send) : List (TypeId × String) :=
  history.map fun q => (q.1.metaType q.2.receiver, q.2.name)

/-- The receivers, whose meta types were asked for. -/
def receivers (history : History Send) : History Value :=
  history.map fun q => (q.1, q.2.receiver)

theorem lastEpoch_concat : lastEpoch (history ++ [(m, x)]) = m.registry.epoch := by
  simp [lastEpoch]

theorem Before.concat {r : Registry} (before : history.Before m.registry)
    (le : m.registry.epoch ≤ r.epoch) : Before r (history ++ [(m, x)]) := by
  intro q mem
  rcases List.mem_append.mp mem with hold | hnew
  · exact Nat.le_trans (before q hold) le
  · rw [List.mem_singleton.mp hnew]
    exact le

theorem Ordered.concat (ordered : history.Ordered) (before : history.Before m.registry) :
    Ordered (history ++ [(m, x)]) := by
  refine List.pairwise_append.mpr ⟨ordered, List.pairwise_singleton _ _, fun q hq q' hq' => ?_⟩
  rw [List.mem_singleton.mp hq']
  exact before q hq

/-- A question of the present epoch was asked in the epoch of the last one. -/
theorem Ordered.lastEpoch_eq {r : Registry} (ordered : history.Ordered)
    (before : history.Before r) {q : Machine × α} (mem : q ∈ history)
    (now : q.1.registry.epoch = r.epoch) : history.lastEpoch = r.epoch := by
  rcases List.eq_nil_or_concat history with rfl | ⟨earlier, last, rfl⟩
  · cases mem
  · rw [List.concat_eq_append] at ordered before mem ⊢
    obtain ⟨m, x⟩ := last
    rw [lastEpoch_concat]
    refine Nat.le_antisymm (before (m, x) (List.mem_append_right _ List.mem_cons_self)) ?_
    rcases List.mem_append.mp mem with hearlier | hlast
    · rw [← now]
      exact (List.pairwise_append.mp ordered).2.2 q hearlier (m, x) List.mem_cons_self
    · rw [List.mem_singleton] at hlast
      subst hlast
      exact Nat.le_of_eq now.symm

end History

/-- What an entry was looked up for. -/
def LookupEntry.pair (e : LookupEntry) : TypeId × String := (e.metaType, e.name)

/-- What a chain of methods holds by the lookups that it was asked for: those
since the epoch last changed, if at no time there were more than its limit between
two changes of the epoch, and nothing from then on. -/
structure GuardChain.HoldsLookups (limit : Nat) (history : History Send)
    (chain : GuardChain LookupEntry) : Prop where
  ordered : history.Ordered
  latest : (∀ epoch, (firstSeen (history.during epoch).pairs).length ≤ limit) →
    chain.Holds LookupEntry.pair limit (history.during history.lastEpoch).pairs
      ∧ chain.All (·.epoch = history.lastEpoch)
  overflown : ∀ epoch, limit < (firstSeen (history.during epoch).pairs).length →
    chain.megamorphic = true ∧ chain.entries = []

namespace GuardChain.HoldsLookups

variable {ρ : Type v} {limit : Nat} {history : History Send} {chain : GuardChain LookupEntry}
  {m : Machine}

theorem empty (limit : Nat) : (empty limit).HoldsLookups limit [] where
  ordered := .nil
  latest _ := ⟨.empty _ _, all_empty _⟩
  overflown _ many := absurd many (Nat.not_lt_zero _)

/-- A chain gives up exactly if once there was too much in one epoch. -/
theorem megamorphic_iff (holds : chain.HoldsLookups limit history) :
    chain.megamorphic = true
      ↔ ∃ epoch, limit < (firstSeen (history.during epoch).pairs).length := by
  refine ⟨fun hmega => ?_, fun ⟨epoch, many⟩ => (holds.overflown epoch many).1⟩
  refine Classical.byContradiction fun none => ?_
  have few := fun epoch => Nat.le_of_not_lt fun many => none ⟨epoch, many⟩
  have hlatest := (holds.latest few).1.megamorphic_iff.mp hmega
  exact Nat.not_lt_of_le (few _) hlatest

/-- Lookups that are not too many altogether are never too many in one epoch. -/
theorem not_megamorphic (holds : chain.HoldsLookups limit history)
    (few : (firstSeen history.pairs).length ≤ limit) : chain.megamorphic = false := by
  refine Bool.eq_false_of_not_eq_true fun hmega => ?_
  obtain ⟨epoch, many⟩ := holds.megamorphic_iff.mp hmega
  have hsubset : (history.during epoch).pairs ⊆ history.pairs :=
    List.map_subset _ (List.filter_subset_self _)
  exact absurd (length_firstSeen_le_of_subset hsubset) (by omega)

/-- After the last lookup the chain is known by what it holds of its epoch. -/
theorem concat (holds : chain.HoldsLookups limit history) (before : history.Before m.registry)
    {s : Send} (few : ∀ epoch, (firstSeen (history.during epoch).pairs).length ≤ limit)
    {chain' : GuardChain LookupEntry}
    (now : chain'.Holds LookupEntry.pair limit
      ((history.during m.registry.epoch).pairs ++ [(m.metaType s.receiver, s.name)]))
    (all : chain'.All (·.epoch = m.registry.epoch)) :
    chain'.HoldsLookups limit (history ++ [(m, s)]) := by
  have hpairs : (History.during m.registry.epoch (history ++ [(m, s)])).pairs
      = (history.during m.registry.epoch).pairs ++ [(m.metaType s.receiver, s.name)] := by
    unfold History.during
    rw [History.withKey_concat_self (q := (m, s))]
    exact List.map_append
  refine ⟨holds.ordered.concat before, fun _ => ?_, fun epoch many => ?_⟩
  · rw [History.lastEpoch_concat, hpairs]
    exact ⟨now, all⟩
  · by_cases heq : epoch = m.registry.epoch
    · subst heq
      rw [hpairs] at many
      exact now.overflown _ (List.prefix_refl _) many
    · unfold History.during at many
      rw [History.withKey_concat_of_ne heq] at many
      exact absurd (few epoch) (Nat.not_le_of_lt many)

/-- Without what is stale, a chain holds what was looked up in this epoch. -/
theorem retain (holds : chain.HoldsLookups limit history) (before : history.Before m.registry)
    (few : ∀ epoch, (firstSeen (history.during epoch).pairs).length ≤ limit) :
    (chain.retain (·.epoch == m.registry.epoch)).Holds LookupEntry.pair limit
      (history.during m.registry.epoch).pairs := by
  obtain ⟨hholds, hall⟩ := holds.latest few
  by_cases heq : history.lastEpoch = m.registry.epoch
  · have hsame : chain.retain (·.epoch == m.registry.epoch) = chain := by
      unfold GuardChain.retain
      rw [List.filter_eq_self.mpr fun e mem => beq_iff_eq.mpr ((hall e mem).trans heq)]
    rw [hsame, ← heq]
    exact hholds
  · -- nothing was asked in this epoch yet, and nothing is left
    have hnone : history.during m.registry.epoch = [] := by
      refine List.filter_eq_nil_iff.mpr fun q mem hq => heq ?_
      exact holds.ordered.lastEpoch_eq before mem (of_decide_eq_true hq)
    have hdropped : (chain.retain (·.epoch == m.registry.epoch)).entries = [] := by
      refine List.filter_eq_nil_iff.mpr fun e mem he => heq ?_
      exact (hall e mem).symm.trans (beq_iff_eq.mp he)
    have hsparse : chain.megamorphic = false :=
      (hholds.kept (few _)).1
    rw [hnone]
    exact .of_now hholds.limit_eq (fun _ => ⟨hsparse, by rw [hdropped]; rfl⟩)
      fun many => absurd many (Nat.not_lt_zero _)

/-- A chain that gave up stays as it is. -/
theorem again (holds : chain.HoldsLookups limit history) (before : history.Before m.registry)
    {epoch : Nat} (many : limit < (firstSeen (history.during epoch).pairs).length) (s : Send) :
    chain.HoldsLookups limit (history ++ [(m, s)]) := by
  have hmore : limit < (firstSeen (History.during epoch (history ++ [(m, s)])).pairs).length := by
    refine Nat.lt_of_lt_of_le many (length_firstSeen_le_of_subset (List.map_subset _ ?_))
    unfold History.during History.withKey
    rw [List.filter_append]
    exact List.subset_append_left _ _
  exact ⟨holds.ordered.concat before, fun few => absurd (few epoch) (Nat.not_le_of_lt hmore),
    fun _ _ => holds.overflown epoch many⟩

/-- A chain that gave up finds nothing and takes nothing. -/
theorem methodFrom_of_overflown (hmega : chain.megamorphic = true) (hempty : chain.entries = [])
    (t : TypeId) (name : String) : (LookupSite.methodFrom chain m t name).2 = chain := by
  obtain ⟨limit, entries, megamorphic⟩ := chain
  cases hmega
  cases hempty
  rfl

/-- A hit is of this epoch, so all entries are. -/
theorem of_hit (holds : chain.HoldsLookups limit history) (before : history.Before m.registry)
    (few : ∀ epoch, (firstSeen (history.during epoch).pairs).length ≤ limit) {s : Send}
    {probe : LookupEntry → Option ρ} {found : ρ} (hit : chain.findMap? probe = some found)
    (guarded : ∀ e, probe e = some found →
      e.epoch = m.registry.epoch ∧ e.pair = (m.metaType s.receiver, s.name)) :
    chain.HoldsLookups limit (history ++ [(m, s)]) := by
  obtain ⟨e, mem, he⟩ := exists_of_findMap? hit
  obtain ⟨hholds, hall⟩ := holds.latest few
  have hlast : history.lastEpoch = m.registry.epoch :=
    (hall e mem).symm.trans (guarded e he).1
  rw [hlast] at hholds hall
  exact holds.concat before few (hholds.of_hit hit fun e he => (guarded e he).2) hall

/-- A lookup more. -/
theorem methodFrom (holds : chain.HoldsLookups limit history)
    (before : history.Before m.registry) (s : Send) :
    (LookupSite.methodFrom chain m (m.metaType s.receiver) s.name).2.HoldsLookups limit
      (history ++ [(m, s)]) := by
  by_cases many : ∃ epoch, limit < (firstSeen (history.during epoch).pairs).length
  · obtain ⟨epoch, many⟩ := many
    obtain ⟨hmega, hempty⟩ := holds.overflown epoch many
    rw [methodFrom_of_overflown hmega hempty]
    exact holds.again before many s
  · have few := fun epoch => Nat.le_of_not_lt fun more => many ⟨epoch, more⟩
    unfold LookupSite.methodFrom
    dsimp only
    split
    · next hit =>
      refine holds.of_hit before few hit fun e he => ?_
      obtain ⟨htype, hepoch, hname⟩ := (Option.ite_none_right_eq_some.mp he).1
      exact ⟨hepoch, Prod.ext htype hname⟩
    · have hall : (chain.retain (·.epoch == m.registry.epoch)).All
          (·.epoch = m.registry.epoch) :=
        fun e mem => beq_iff_eq.mp (List.mem_filter.mp mem).2
      refine holds.concat before few
        ((holds.retain before few).install ⟨_, _, _, _⟩ fun e mem => ?_) (hall.install rfl)
      unfold LookupEntry.same LookupEntry.pair
      simp [hall e mem]

end GuardChain.HoldsLookups

/-- A site for sends asks for the meta type of each receiver, and looks up a
method from there. -/
structure LookupSite.Occupied (limits : CacheLimits) (history : History Send)
    (site : LookupSite) : Prop where
  types : site.types.Occupied limits history.receivers
  lookups : site.lookups.HoldsLookups limits.lookups history

namespace LookupSite

variable {site : LookupSite} {history : History Send} {m : Machine}

theorem occupied_fresh (limits : CacheLimits) : (fresh limits).Occupied limits [] where
  types := MetaTypeSite.occupied_fresh limits
  lookups := .empty _

theorem Occupied.find (occupied : site.Occupied limits history)
    (coherent : site.Coherent m.registry) (before : history.Before m.registry) (s : Send) :
    (site.find m s.receiver s.name).2.Occupied limits (history ++ [(m, s)]) where
  types := by
    have hreceivers : History.receivers (history ++ [(m, s)])
        = history.receivers ++ [(m, s.receiver)] := List.map_append
    rw [hreceivers]
    exact occupied.types.resolve coherent.types s.receiver
  lookups := by
    have htype := (MetaTypeSite.resolve_eq coherent.types s.receiver).1
    show (methodFrom site.lookups m (site.types.resolve m s.receiver).1 s.name).2.HoldsLookups _ _
    rw [htype]
    exact occupied.lookups.methodFrom before s

end LookupSite

end ObjectModel
