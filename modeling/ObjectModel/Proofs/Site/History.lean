/-
The history of a nest of sites decides what it remembers.

A dispatch site is asked to send messages. It looks all of them up; those to
foreign objects that find no method go on to its foreign side. There a message
belongs to the branch of its name and its class of send, if there is one. The
branch of `__send__` sends on from a dispatch site of its own, and the branch of
an operator from a site for each kind of primitive that was unboxed. So every
site in the nest has a history, which is a part of the history of the outermost
one: `Occupied` says, all the way down, that each chain holds what the history of
its site says (`GuardChain.Holds`, `GuardChain.HoldsLookups`).

A call keeps this, whether it succeeds or raises (`DispatchSite.occupied_callWithin`,
by induction on the steps that are left, as for coherence). In the life of a
site calls come in any number, and the registry evolves between two of them in
any way. What the site remembers has to be true for this, because a hit is
counted as what an uncached resolution would have found.
-/
import ObjectModel.Proofs.Site.Occupancy
import ObjectModel.Proofs.Site.Transparency

namespace ObjectModel

/-- A message for a foreign object. -/
structure ForeignSend where
  object : ForeignId
  name : String
  args : List Value
deriving DecidableEq

-- ======================================================== parts of a history

/-- The message that a step of a send turned into, and the machine after it. -/
def Progress.sentOn? : Progress × Machine → Option (Machine × Send)
  | (.resend next, m) => some (m, next)
  | _ => none

namespace Machine

variable (m : Machine)

/-- A send to a foreign object that finds no method is left to the object. -/
def unanswered? (s : Send) : Option (Machine × ForeignSend) :=
  match m.lookup? s.receiver s.name, s.receiver with
  | none, .foreign f => some (m, ⟨f, s.name, s.args⟩)
  | _, _ => none

/-- What a foreign `__send__` turns into. -/
def sentOn? (s : ForeignSend) : Option (Machine × Send) :=
  Progress.sentOn? (m.performOutgoing .send s.object s.name s.args)

/-- What an operator turns into once the foreign object is unboxed. -/
def unboxed? (s : ForeignSend) : Option (Machine × Send) :=
  Progress.sentOn? (m.performOutgoing .operator s.object s.name s.args)

/-- Unboxing makes a string at most, which is no change of methods. -/
theorem epoch_unbox {kind : PrimitiveKind} {f : ForeignId} {outcome : Outcome} {m' : Machine}
    (h : m.unbox kind f = some (outcome, m')) : m'.registry.epoch = m.registry.epoch := by
  obtain ⟨message, unboxing⟩ := unboxing_of_unbox h
  cases unboxing with
  | refused | bool | fixnum | float | text => rfl

theorem epoch_performOperator (kind : PrimitiveKind) (f : ForeignId) (name : String)
    (args : List Value) :
    (m.performOperator kind f name args).2.registry.epoch = m.registry.epoch := by
  unfold performOperator
  split
  · next h => exact m.epoch_unbox h
  · next h => exact m.epoch_unbox h
  · rw [registry_finishWith, registry_deliver]

theorem epoch_performOutgoing_operator (f : ForeignId) (name : String) (args : List Value) :
    (m.performOutgoing .operator f name args).2.registry.epoch = m.registry.epoch := by
  have hasked := m.registry_primitiveKind f
  unfold performOutgoing
  dsimp only
  rw [epoch_performOperator, hasked]

/-- A name that is sent on leaves the machine alone. -/
theorem performOutgoing_send (f : ForeignId) (name : String) (args : List Value) :
    (m.performOutgoing .send f name args).2 = m := by
  unfold performOutgoing
  dsimp only
  split
  · rfl
  · rfl

end Machine

/-- The name and the class of a send to a foreign object. -/
def ForeignSend.branch (q : Machine × ForeignSend) : String × OutgoingCall :=
  (q.2.name, OutgoingCall.classify q.1.registry q.2.name q.2.args)

/-- The kind of primitive that an operator is sent to. -/
def ForeignSend.kind (q : Machine × ForeignSend) : PrimitiveKind :=
  (q.1.primitiveKind q.2.object).1

/-- What is sent on is sent on from the machine after the step. -/
theorem Progress.eq_of_sentOn? {p : Progress × Machine} {q : Machine × Send}
    (h : sentOn? p = some q) : p = (.resend q.2, q.1) := by
  unfold sentOn? at h
  split at h
  · cases h
    rfl
  · cases h

namespace History

variable {α β : Type} {history : History α} {r : Registry} {m : Machine} {s : ForeignSend}

/-- The sends that were left to foreign objects. -/
def unanswered (history : History Send) : History ForeignSend :=
  history.collect Machine.unanswered?

/-- The messages that were sent on. -/
def sentOn (history : History ForeignSend) : History Send :=
  history.collect Machine.sentOn?

/-- The operators as they were sent to the primitives. -/
def unboxed (history : History ForeignSend) : History Send :=
  history.collect Machine.unboxed?

theorem Before.withKey {κ : Type} [DecidableEq κ] {keyOf : Machine × α → κ} {k : κ}
    (before : history.Before r) : Before r (history.withKey keyOf k) :=
  fun q mem => before q (List.mem_filter.mp mem).1

/-- What follows from questions in their own epochs is not after them. -/
theorem Before.collect {f : Machine → α → Option (Machine × β)} (before : history.Before r)
    (same : ∀ m x q, f m x = some q → q.1.registry.epoch = m.registry.epoch) :
    Before r (history.collect f) := by
  intro q mem
  obtain ⟨⟨m, x⟩, hold, hf⟩ := List.mem_filterMap.mp mem
  rw [same m x q hf]
  exact before (m, x) hold

theorem Before.unanswered {history : History Send} (before : history.Before r) :
    history.unanswered.Before r := by
  refine before.collect fun m s q h => ?_
  unfold Machine.unanswered? at h
  split at h
  · cases h
    rfl
  · cases h

theorem Before.sentOn {history : History ForeignSend} (before : history.Before r) :
    history.sentOn.Before r := by
  refine before.collect fun m s q h => ?_
  have hmachine := m.performOutgoing_send s.object s.name s.args
  rw [Progress.eq_of_sentOn? h] at hmachine
  exact congrArg (·.registry.epoch) hmachine

theorem Before.unboxed {history : History ForeignSend} (before : history.Before r) :
    history.unboxed.Before r := by
  refine before.collect fun m s q h => ?_
  have hepoch := m.epoch_performOutgoing_operator s.object s.name s.args
  rw [Progress.eq_of_sentOn? h] at hepoch
  exact hepoch

end History

variable {natives : Natives} {limits : CacheLimits} {m : Machine}

-- ================================================================= operators

/-- An operator's site has a site for each kind of primitive, which was asked to
send what was unboxed to this kind. -/
structure OperatorSite.Occupied (limits : CacheLimits) (history : History ForeignSend)
    (site : OperatorSite) : Prop where
  limits_eq : site.limits = limits
  kinds : site.kinds.Nests ForeignSend.kind OperatorBranch.kind
    (fun asked branch => branch.site.Occupied limits asked.unboxed) limits.lookups history

namespace OperatorSite

variable {site : OperatorSite} {history : History ForeignSend}

theorem occupied_fresh (limits : CacheLimits) : (fresh limits).Occupied limits [] where
  limits_eq := rfl
  kinds := .empty _ _ _ _

/-- An operator more, once the object was asked for its kind, and the branch of that
is there or the site has given up. -/
theorem occupied_callThrough {fuel : Nat} {branch : OperatorBranch} {f : ForeignId}
    {name : String} {args : List Value} {outcome : Outcome} {asking m' : Machine}
    {site' : OperatorSite} (asked : asking.primitiveKind f = (branch.kind, m))
    (ends : callThrough natives fuel site branch m f name args = some (outcome, m', site'))
    (equipped : m.registry.Equipped) (before : history.Before m.registry)
    (limits_eq : site.limits = limits)
    (holds : site.kinds.Holds OperatorBranch.kind limits.lookups
      (history.map ForeignSend.kind ++ [branch.kind]))
    (own : branch.site.Occupied limits (history.withKey ForeignSend.kind branch.kind).unboxed)
    (inner : site.kinds.All fun b =>
      b.site.Occupied limits (history.withKey ForeignSend.kind b.kind).unboxed)
    (coherent : branch.site.Coherent m.registry) :
    site'.Occupied limits (history ++ [(asking, ⟨f, name, args⟩)]) := by
  have hkind : ForeignSend.kind (asking, ⟨f, name, args⟩) = branch.kind := congrArg Prod.fst asked
  have hstep := Machine.evolves_performOperator equipped branch.kind f name args
  have hepoch := m.epoch_performOperator branch.kind f name args
  have hunboxed : asking.unboxed? ⟨f, name, args⟩
      = Progress.sentOn? (m.performOperator branch.kind f name args) := by
    unfold Machine.unboxed? Machine.performOutgoing
    dsimp only
    rw [asked]
  rw [← hkind] at holds
  unfold callThrough at ends
  cases hp : m.performOperator branch.kind f name args with
  | mk progress m₁ =>
  rw [hp] at hstep hepoch hunboxed ends
  cases progress with
  | endless => cases ends
  | finished outcome =>
      -- nothing was sent on, so the branch learned nothing
      cases ends
      refine ⟨limits_eq, .concat holds (fun b mem hb => ?_) fun b mem _ => inner b mem⟩
      unfold History.unboxed
      rw [History.collect_concat_of_none hunboxed, ← hb]
      exact inner b mem
  | resend next =>
      have hbefore : (history.withKey ForeignSend.kind branch.kind).unboxed.Before m₁.registry := by
        intro q mem
        rw [hepoch]
        exact before.withKey.unboxed q mem
      have hlookup := own.find
        (coherent.of_grows equipped.wellFormed (hstep.grows equipped.wellFormed)) hbefore next
      dsimp only at ends
      generalize branch.site.find m₁ next.receiver next.name = found at ends hlookup
      obtain ⟨⟨outcome, m₂⟩, -, hend⟩ := Option.map_eq_some_iff.mp ends
      cases hend
      refine ⟨limits_eq, .revise holds (fun b => ?_) (fun b _ hb => ?_) fun b mem hb => ?_⟩
      · split
        · rfl
        · rfl
      · rw [hkind] at hb
        unfold History.unboxed
        rw [if_pos hb, History.collect_concat_of_some hunboxed, hkind]
        exact hlookup
      · rw [hkind] at hb
        rw [if_neg hb]
        exact inner b mem

/-- An operator more. -/
theorem Occupied.callWithin (occupied : site.Occupied limits history)
    (equipped : m.registry.Equipped) (before : history.Before m.registry)
    (coherent : site.Coherent m.registry) {fuel : Nat} {f : ForeignId} {name : String}
    {args : List Value} {outcome : Outcome} {m' : Machine} {site' : OperatorSite}
    (ends : site.callWithin natives fuel m f name args = some (outcome, m', site')) :
    site'.Occupied limits (history ++ [(m, ⟨f, name, args⟩)]) := by
  obtain ⟨limits_eq, nests⟩ := occupied
  have hasked := m.registry_primitiveKind f
  unfold OperatorSite.callWithin at ends
  dsimp only at ends
  rcases asked : m.primitiveKind f with ⟨kind, m₁⟩
  rw [asked] at ends hasked
  dsimp only at ends hasked
  rw [← hasked] at equipped before coherent
  have hguard : ∀ {b branch : OperatorBranch},
      (if b.kind = kind then some b else none) = some branch →
        b = branch ∧ branch.kind = kind := by
    intro b branch hb
    obtain ⟨hsame, ⟨⟩⟩ := Option.ite_none_right_eq_some.mp hb
    exact ⟨rfl, hsame⟩
  split at ends
  · next branch hit =>
    obtain ⟨b, mem, hb⟩ := GuardChain.exists_of_findMap? hit
    obtain ⟨rfl, rfl⟩ := hguard hb
    have hholds := nests.holds.of_hit hit fun b' hb' => congrArg OperatorBranch.kind (hguard hb').1
    exact occupied_callThrough asked ends equipped before limits_eq hholds (nests.inner b mem)
      nests.inner (coherent b mem)
  · next miss =>
    split at ends
    · next hmega =>
      obtain ⟨⟨outcome, m₂⟩, -, hend⟩ := Option.map_eq_some_iff.mp ends
      cases hend
      exact ⟨limits_eq, nests.of_megamorphic hmega⟩
    · next hsparse =>
      have hnew : kind ∉ history.map ForeignSend.kind :=
        nests.holds.notMem_of_miss miss (Bool.eq_false_of_not_eq_true hsparse) fun b hb => by
          rw [if_pos hb]
          exact Option.some_ne_none b
      have hfresh : (LookupSite.fresh site.limits).Occupied limits [] :=
        limits_eq ▸ LookupSite.occupied_fresh limits
      obtain ⟨hholds, hown, hinner⟩ := nests.install sameKind ⟨kind, _⟩
        (fun b _ => beq_iff_eq) hnew hfresh
      exact occupied_callThrough asked ends equipped before limits_eq hholds hown hinner
        (LookupSite.coherent_fresh _)

end OperatorSite

-- ============================================================== nested sites

/-- What a branch is for. -/
def ForeignBranch.key (b : ForeignBranch) : String × OutgoingCall := (b.name, b.call)

theorem ForeignBranch.same_iff (a b : ForeignBranch) : a.same b = true ↔ a.key = b.key := by
  unfold same key
  rw [Bool.and_eq_true_iff, beq_iff_eq, beq_iff_eq, Prod.mk.injEq]

theorem ForeignBranch.accepts_iff (b : ForeignBranch) (m : Machine) (f : ForeignId)
    (name : String) (args : List Value) :
    b.accepts m name args = true ↔ b.key = ForeignSend.branch (m, ⟨f, name, args⟩) := by
  unfold accepts key ForeignSend.branch
  rw [Bool.and_eq_true_iff, beq_iff_eq, beq_iff_eq, Prod.mk.injEq]
  exact and_congr_right fun _ => eq_comm

mutual

/-- A dispatch site looks up every send, and leaves those that are unanswered to
its foreign side. -/
inductive DispatchSite.Occupied (limits : CacheLimits) : History Send → DispatchSite → Prop
  | intro {history : History Send} {site : DispatchSite}
      (lookup : site.lookup.Occupied limits history)
      (foreign : ForeignSite.Occupied limits history.unanswered site.foreign) :
      DispatchSite.Occupied limits history site

/-- A foreign site has a branch for each name and class of send, which was asked
to send the messages of this name and class. -/
inductive ForeignSite.Occupied (limits : CacheLimits) :
    History ForeignSend → ForeignSite → Prop
  | intro {history : History ForeignSend} {site : ForeignSite} (limits_eq : site.limits = limits)
      (branches : site.branches.Holds ForeignBranch.key limits.dispatch
        (history.map ForeignSend.branch))
      (inner : ∀ b ∈ site.branches.entries,
        ForeignBranch.Occupied limits (history.withKey ForeignSend.branch b.key) b) :
      ForeignSite.Occupied limits history site

/-- The branch of `__send__` sends on from a dispatch site, the branch of an
operator from an operator's site, and no other sends on. -/
inductive ForeignBranch.Occupied (limits : CacheLimits) :
    History ForeignSend → ForeignBranch → Prop
  | direct {history : History ForeignSend} {b : ForeignBranch} (nested : b.nested = .none)
      (call : b.call ≠ .send ∧ b.call ≠ .operator) : ForeignBranch.Occupied limits history b
  | send {history : History ForeignSend} {b : ForeignBranch} {site : DispatchSite}
      (nested : b.nested = .send site) (call : b.call = .send)
      (inner : DispatchSite.Occupied limits history.sentOn site) :
      ForeignBranch.Occupied limits history b
  | operator {history : History ForeignSend} {b : ForeignBranch} {site : OperatorSite}
      (nested : b.nested = .operator site) (call : b.call = .operator)
      (inner : site.Occupied limits history) : ForeignBranch.Occupied limits history b

end

theorem ForeignSite.occupied_fresh (limits : CacheLimits) : (fresh limits).Occupied limits [] :=
  .intro rfl (.empty _ _) (GuardChain.all_empty _)

theorem DispatchSite.occupied_fresh (limits : CacheLimits) : (fresh limits).Occupied limits [] :=
  .intro (LookupSite.occupied_fresh limits) (ForeignSite.occupied_fresh limits)

theorem ForeignBranch.occupied_fresh (limits : CacheLimits) (name : String)
    (call : OutgoingCall) : (fresh limits name call).Occupied limits [] := by
  cases call with
  | send => exact .send rfl rfl (DispatchSite.occupied_fresh limits)
  | operator => exact .operator rfl rfl (OperatorSite.occupied_fresh limits)
  | _ => exact .direct rfl ⟨nofun, nofun⟩

/-- Calls of dispatch sites leave what their histories say. -/
def Onward.Occupies (limits : CacheLimits) (onward : Onward) : Prop :=
  ∀ {history : History Send} {site : DispatchSite} {m : Machine} (s : Send)
    {outcome : Outcome} {m' : Machine} {site' : DispatchSite},
    m.registry.Equipped → history.Before m.registry → site.Coherent m.registry →
      site.Occupied limits history → onward site m s = some (outcome, m', site') →
        site'.Occupied limits (history ++ [(m, s)])

variable {onward : Onward}

theorem ForeignBranch.Coherent.of_send {r : Registry} {b : ForeignBranch} {site : DispatchSite}
    (coherent : b.Coherent r) (nested : b.nested = .send site) : site.Coherent r := by
  cases coherent with
  | direct other | operator other => exact absurd (other.symm.trans nested) nofun
  | send same inner =>
      cases same.symm.trans nested
      exact inner

theorem ForeignBranch.Coherent.of_operator {r : Registry} {b : ForeignBranch}
    {site : OperatorSite} (coherent : b.Coherent r) (nested : b.nested = .operator site) :
    site.Coherent r := by
  cases coherent with
  | direct other | send other => exact absurd (other.symm.trans nested) nofun
  | operator same _ inner =>
      cases same.symm.trans nested
      exact inner

/-- A message more through a branch. -/
theorem ForeignBranch.Occupied.perform {history : History ForeignSend} {b : ForeignBranch}
    (occupied : b.Occupied limits history) (occupies : onward.Occupies limits)
    (equipped : m.registry.Equipped) (before : history.Before m.registry)
    (coherent : b.Coherent m.registry) {fuel : Nat} {f : ForeignId} {args : List Value}
    {outcome : Outcome} {m' : Machine} {b' : ForeignBranch}
    (ends : b.perform natives fuel onward m f args = some (outcome, m', b')) :
    b'.key = b.key ∧ b'.Occupied limits (history ++ [(m, ⟨f, b.name, args⟩)]) := by
  unfold ForeignBranch.perform at ends
  cases occupied with
  | direct nested call =>
      rw [nested] at ends
      obtain ⟨_, -, hend⟩ := Option.map_eq_some_iff.mp ends
      cases hend
      exact ⟨rfl, .direct nested call⟩
  | operator nested call inner =>
      rw [nested] at ends
      obtain ⟨⟨_, _, site'⟩, hinner, hend⟩ := Option.map_eq_some_iff.mp ends
      cases hend
      exact ⟨rfl, .operator rfl call
        (inner.callWithin equipped before (coherent.of_operator nested) hinner)⟩
  | send nested call inner =>
      have hsame := m.performOutgoing_send f b.name args
      have hsent : m.sentOn? ⟨f, b.name, args⟩
          = Progress.sentOn? (m.performOutgoing .send f b.name args) := rfl
      rw [nested, call] at ends
      dsimp only at ends
      cases hp : m.performOutgoing .send f b.name args with
      | mk progress m₁ =>
      rw [hp] at hsame hsent ends
      have hsame : m₁ = m := hsame
      rw [hsame] at hsent ends
      cases progress with
      | endless => cases ends
      | finished outcome =>
          cases ends
          refine ⟨rfl, .send nested call ?_⟩
          unfold History.sentOn
          rw [History.collect_concat_of_none hsent]
          exact inner
      | resend next =>
          obtain ⟨⟨_, _, site'⟩, hinner, hend⟩ := Option.map_eq_some_iff.mp ends
          cases hend
          refine ⟨congrArg (Prod.mk b.name) call.symm, .send rfl rfl ?_⟩
          unfold History.sentOn
          rw [History.collect_concat_of_some hsent]
          exact occupies next equipped before.sentOn (coherent.of_send nested) inner hinner

namespace ForeignSite

variable {site : ForeignSite} {history : History ForeignSend}

/-- The branch that was gone through is put back in its place. -/
theorem occupied_update (site : ForeignSite) (q : Machine × ForeignSend) {b : ForeignBranch}
    (limits_eq : site.limits = limits) (key : b.key = ForeignSend.branch q)
    (holds : site.branches.Holds ForeignBranch.key limits.dispatch
      (history.map ForeignSend.branch ++ [ForeignSend.branch q]))
    (inner : site.branches.All fun b =>
      b.Occupied limits (history.withKey ForeignSend.branch b.key))
    (performed : b.Occupied limits
      (history.withKey ForeignSend.branch (ForeignSend.branch q) ++ [q])) :
    (site.update b).Occupied limits (history ++ [q]) := by
  have nests : (site.update b).branches.Nests ForeignSend.branch ForeignBranch.key
      (ForeignBranch.Occupied limits) limits.dispatch (history ++ [q]) := by
    refine .revise holds (fun e => ?_) (fun e _ heq => ?_) fun e mem hne => ?_
    · split
      · next hsame => exact ((e.same_iff b).mp hsame).symm
      · rfl
    · rw [if_pos ((e.same_iff b).mpr (heq.trans key.symm))]
      exact performed
    · rw [if_neg fun hsame => hne (((e.same_iff b).mp hsame).trans key)]
      exact inner e mem
  exact .intro limits_eq nests.holds nests.inner

/-- A message more to a foreign object. -/
theorem Occupied.callWith (occupied : site.Occupied limits history)
    (occupies : onward.Occupies limits) (equipped : m.registry.Equipped)
    (before : history.Before m.registry) (coherent : site.Coherent m.registry) {fuel : Nat}
    {f : ForeignId} {name : String} {args : List Value} {outcome : Outcome} {m' : Machine}
    {site' : ForeignSite}
    (ends : site.callWith natives fuel onward m f name args = some (outcome, m', site')) :
    site'.Occupied limits (history ++ [(m, ⟨f, name, args⟩)]) := by
  obtain ⟨rfl, branches, inner⟩ := occupied
  have nests : site.branches.Nests ForeignSend.branch ForeignBranch.key
      (ForeignBranch.Occupied site.limits) site.limits.dispatch history := ⟨branches, inner⟩
  have hguard : ∀ {b branch : ForeignBranch},
      (if b.accepts m name args then some b else none) = some branch →
        b = branch ∧ branch.key = ForeignSend.branch (m, ⟨f, name, args⟩) := by
    intro b branch hb
    obtain ⟨haccepts, ⟨⟩⟩ := Option.ite_none_right_eq_some.mp hb
    exact ⟨rfl, (b.accepts_iff m f name args).mp haccepts⟩
  unfold ForeignSite.callWith at ends
  dsimp only at ends
  split at ends
  · next branch hit =>
    obtain ⟨b, mem, hb⟩ := GuardChain.exists_of_findMap? hit
    obtain ⟨rfl, hkey⟩ := hguard hb
    obtain ⟨⟨_, _, b'⟩, hperform, hend⟩ := Option.map_eq_some_iff.mp ends
    cases hend
    have hname : b.name = name := congrArg Prod.fst hkey
    obtain ⟨hkept, hperformed⟩ := (inner b mem).perform occupies equipped before.withKey
      (coherent.branch mem) hperform
    rw [hname, hkey] at hperformed
    exact occupied_update site _ rfl (hkept.trans hkey)
      (branches.of_hit hit fun b' hb' => (congrArg ForeignBranch.key (hguard hb').1).trans hkey)
      inner hperformed
  · next miss =>
    split at ends
    · next hmega =>
      obtain ⟨_, -, hend⟩ := Option.map_eq_some_iff.mp ends
      cases hend
      have hnests := nests.of_megamorphic (q := (m, ⟨f, name, args⟩)) hmega
      exact .intro rfl hnests.holds hnests.inner
    · next hsparse =>
      obtain ⟨⟨_, _, b'⟩, hperform, hend⟩ := Option.map_eq_some_iff.mp ends
      cases hend
      have hnew : ForeignSend.branch (m, ⟨f, name, args⟩) ∉ history.map ForeignSend.branch :=
        branches.notMem_of_miss miss (Bool.eq_false_of_not_eq_true hsparse) fun b hb => by
          rw [if_pos ((b.accepts_iff m f name args).mpr hb)]
          exact Option.some_ne_none b
      obtain ⟨hholds, hown, hinner⟩ := nests.install ForeignBranch.same
        (.fresh site.limits name (OutgoingCall.classify m.registry name args))
        (fun b _ => b.same_iff _) hnew (ForeignBranch.occupied_fresh _ _ _)
      obtain ⟨hkept, hperformed⟩ := hown.perform occupies equipped before.withKey
        (ForeignBranch.coherent_fresh _ _ _) hperform
      exact occupied_update
        ⟨site.limits, (site.branches.install ForeignBranch.same
          (.fresh site.limits name (OutgoingCall.classify m.registry name args))).2⟩
        (m, ⟨f, name, args⟩) rfl hkept hholds hinner hperformed

end ForeignSite

namespace DispatchSite

/-- A send more. The induction is on the steps: a nested site has fewer of them. -/
theorem occupied_callWithin (limits : CacheLimits) :
    ∀ fuel : Nat, Onward.Occupies limits (callWithin natives fuel) := by
  intro fuel
  induction fuel with
  | zero => intro history site m s outcome m' site' _ _ _ _ ends; cases ends
  | succ fuel ih =>
      intro history site m s outcome m' site' equipped before coherent occupied ends
      obtain ⟨lookup, foreign⟩ := coherent
      obtain ⟨occupiedLookup, occupiedForeign⟩ := occupied
      have hmethod := (LookupSite.find_eq lookup equipped s.receiver s.name).1
      have hlookup := occupiedLookup.find lookup before s
      unfold callWithin at ends
      dsimp only at ends
      rw [hmethod] at ends
      split at ends
      · next f hnone hreceiver =>
        obtain ⟨⟨_, _, foreign'⟩, hforeign, hend⟩ := Option.map_eq_some_iff.mp ends
        cases hend
        refine .intro hlookup ?_
        have hone : m.unanswered? s = some (m, ⟨f, s.name, s.args⟩) := by
          unfold Machine.unanswered?
          rw [hnone, hreceiver]
        unfold History.unanswered
        rw [History.collect_concat_of_some hone]
        exact occupiedForeign.callWith ih equipped before.unanswered foreign hforeign
      · next hanswered =>
        obtain ⟨_, -, hend⟩ := Option.map_eq_some_iff.mp ends
        cases hend
        refine .intro hlookup ?_
        have hnone : m.unanswered? s = none := by
          unfold Machine.unanswered?
          split
          · next f h₁ h₂ => exact (hanswered f h₁ h₂).elim
          · rfl
        unfold History.unanswered
        rw [History.collect_concat_of_none hnone]
        exact occupiedForeign

end DispatchSite

end ObjectModel
