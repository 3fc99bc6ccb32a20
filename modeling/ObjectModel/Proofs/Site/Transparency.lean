/-
A call through a site is a send.

`Agrees` compares what a call through a site ends in with what a run without
memory ends in: both go on for ever, or they have the same outcome and the same
machine, whose registry evolved, and the site is coherent with it afterwards.
Step for step, since both count their steps alike, with any number of steps to
make.

The proof follows the nesting of the sites from the inside: an operator's site
first, then a branch and a foreign site, given that calls of nested dispatch
sites agree, and at last dispatch sites, by induction on the steps that are
left, which ties the knot.
-/
import ObjectModel.Proofs.Site.Coherence

namespace ObjectModel

/-- What a call through a site ends in, beside what a run ends in. -/
inductive Agrees {σ : Type} (r : Registry) (Coherent : Registry → σ → Prop) :
    Option (Outcome × Machine × σ) → Option (Outcome × Machine) → Prop
  | endless : Agrees r Coherent none none
  | ended {outcome : Outcome} {m : Machine} {site : σ} (evolves : r.Evolves m.registry)
      (coherent : Coherent m.registry site) :
      Agrees r Coherent (some (outcome, m, site)) (some (outcome, m))

/-- What a call through a site ends in, without the site. -/
def withoutSite {σ : Type} (called : Option (Outcome × Machine × σ)) :
    Option (Outcome × Machine) :=
  called.map fun (outcome, m, _) => (outcome, m)

namespace Agrees

variable {σ τ : Type} {r r₁ : Registry} {P : Registry → σ → Prop} {Q : Registry → τ → Prop}
  {called : Option (Outcome × Machine × σ)} {run : Option (Outcome × Machine)}

/-- A run itself, beside a site that stays coherent. -/
theorem of_run {site : σ}
    (evolves : ∀ {outcome m}, run = some (outcome, m) → r.Evolves m.registry)
    (coherent : ∀ {r' : Registry}, r.Evolves r' → P r' site) :
    Agrees r P (run.map fun (outcome, m) => (outcome, m, site)) run := by
  cases run with
  | none => exact .endless
  | some ended => exact .ended (evolves rfl) (coherent (evolves rfl))

/-- A site around the site that was called. -/
theorem map (agrees : Agrees r P called run) (f : σ → τ)
    (coherent : ∀ {r' : Registry} {site : σ}, r.Evolves r' → P r' site → Q r' (f site)) :
    Agrees r Q (called.map fun (outcome, m, site) => (outcome, m, f site)) run := by
  cases agrees with
  | endless => exact .endless
  | ended evolves inner => exact .ended evolves (coherent evolves inner)

theorem of_evolves (before : r.Evolves r₁) (agrees : Agrees r₁ P called run) :
    Agrees r P called run := by
  cases agrees with
  | endless => exact .endless
  | ended evolves coherent => exact .ended (before.trans evolves) coherent

/-- A call that ended leaves a registry that evolved and a coherent site. -/
theorem ended_coherent (agrees : Agrees r P called run) {outcome : Outcome} {m : Machine}
    {site : σ} (h : called = some (outcome, m, site)) :
    r.Evolves m.registry ∧ P m.registry site := by
  cases agrees with
  | endless => cases h
  | ended evolves coherent =>
      cases h
      exact ⟨evolves, coherent⟩

/-- Without the site, what a call ends in is what the run ends in. -/
theorem withoutSite_eq (agrees : Agrees r P called run) : withoutSite called = run := by
  cases agrees with
  | endless => rfl
  | ended _ _ => rfl

end Agrees

variable {natives : Natives} {m : Machine}

-- ================================================================== operators

namespace OperatorSite

variable {site : OperatorSite}

/-- Through any of its branches, an operator is sent as without memory. -/
theorem agrees_callThrough (equipped : m.registry.Equipped) (coherent : site.Coherent m.registry)
    {branch : OperatorBranch} (inner : branch.site.Coherent m.registry) (fuel : Nat)
    (f : ForeignId) (name : String) (args : List Value) :
    Agrees m.registry OperatorSite.Coherent
      (callThrough natives fuel site branch m f name args)
      (Machine.settle natives fuel (m.performOperator branch.kind f name args)) := by
  have hstep := Machine.evolves_performOperator equipped branch.kind f name args
  have hgrows := hstep.grows equipped.wellFormed
  unfold callThrough
  cases hp : m.performOperator branch.kind f name args with
  | mk progress m₁ =>
  rw [hp] at hstep hgrows
  cases progress with
  | finished outcome => exact .ended hstep (coherent.of_grows equipped.wellFormed hgrows)
  | endless => exact .endless
  | resend next =>
      have hequipped := equipped.of_evolves hstep
      obtain ⟨hmethod, hlookup⟩ := LookupSite.find_eq
        (inner.of_grows equipped.wellFormed hgrows) hequipped next.receiver next.name
      have hkinds : ({ site with kinds := site.kinds.revise fun e =>
          if e.kind = branch.kind then
            { e with site := (branch.site.find m₁ next.receiver next.name).2 }
          else e } : OperatorSite).Coherent m₁.registry := by
        refine GuardChain.All.revise (coherent.of_grows equipped.wellFormed hgrows)
          fun e he => ?_
        split
        · exact hlookup
        · exact he
      dsimp only
      rw [hmethod, ← Machine.run_eq_runFound]
      refine .of_evolves hstep (.of_run (Machine.evolves_run fuel hequipped) fun evolves => ?_)
      exact hkinds.of_grows hequipped.wellFormed (evolves.grows hequipped.wellFormed)

/-- An operator sent from a site is sent as without memory. -/
theorem agrees_callWithin (equipped : m.registry.Equipped) (coherent : site.Coherent m.registry)
    (fuel : Nat) (f : ForeignId) (name : String) (args : List Value) :
    Agrees m.registry OperatorSite.Coherent (site.callWithin natives fuel m f name args)
      (Machine.settle natives fuel (m.performOutgoing .operator f name args)) := by
  -- the questions come before anything else, and change no registry
  have hasked := m.registry_primitiveKind f
  unfold callWithin Machine.performOutgoing
  dsimp only
  generalize m.primitiveKind f = asked at hasked ⊢
  obtain ⟨kind, m⟩ := asked
  dsimp only at hasked ⊢
  rw [← hasked] at equipped coherent ⊢
  split
  · next branch h =>
    obtain ⟨b, mem, hb⟩ := GuardChain.exists_of_findMap? h
    split at hb
    · next hkind =>
      cases hb
      rw [← hkind]
      exact agrees_callThrough equipped coherent (coherent branch mem) fuel f name args
    · cases hb
  · split
    · refine .of_run (Machine.evolves_settle equipped ?_) fun evolves => ?_
      · exact Machine.evolves_performOperator equipped _ f name args
      · exact coherent.of_grows equipped.wellFormed (evolves.grows equipped.wellFormed)
    · have hfresh : (LookupSite.fresh site.limits).Coherent m.registry :=
        LookupSite.coherent_fresh site.limits
      refine agrees_callThrough equipped ?_ ?_ fuel f name args
      · exact GuardChain.All.install coherent hfresh
      · exact hfresh

end OperatorSite

-- ============================================================= foreign sites

/-- Calls of dispatch sites, with a number of steps to make, agree with runs. -/
def Onward.Transparent (natives : Natives) (fuel : Nat) (onward : Onward) : Prop :=
  ∀ {site : DispatchSite} {m : Machine} (s : Send), m.registry.Equipped →
    site.Coherent m.registry →
      Agrees m.registry DispatchSite.Coherent (onward site m s) (Machine.run natives m fuel s)

variable {fuel : Nat} {onward : Onward}

/-- A message sent through a branch is sent as without memory. -/
theorem ForeignBranch.agrees_perform (transparent : onward.Transparent natives fuel)
    (equipped : m.registry.Equipped) {b : ForeignBranch} (coherent : b.Coherent m.registry)
    (f : ForeignId) (args : List Value) :
    Agrees m.registry ForeignBranch.Coherent (b.perform natives fuel onward m f args)
      (Machine.settle natives fuel (m.performOutgoing b.call f b.name args)) := by
  have hstep := Machine.evolves_performOutgoing equipped b.call f b.name args
  unfold perform
  cases coherent with
  | direct nested =>
      rw [nested]
      exact .of_run (Machine.evolves_settle equipped hstep) fun _ => .direct nested
  | send nested inner =>
      rw [nested]
      dsimp only
      cases hp : m.performOutgoing b.call f b.name args with
      | mk progress m₁ =>
      rw [hp] at hstep
      cases progress with
      | finished outcome =>
          have hgrows := hstep.grows equipped.wellFormed
          exact .ended hstep (.send nested (inner.of_grows equipped.wellFormed hgrows))
      | endless => exact .endless
      | resend next =>
          have hgrows := hstep.grows equipped.wellFormed
          have honward := transparent next (equipped.of_evolves hstep)
            (inner.of_grows equipped.wellFormed hgrows)
          refine .of_evolves hstep (honward.map
            (fun site => { b with nested := .send site }) fun _ inner => ?_)
          exact ForeignBranch.Coherent.send rfl inner
  | operator nested call inner =>
      have houtgoing : m.performOutgoing b.call f b.name args
          = m.performOutgoing .operator f b.name args := by rw [call]
      rw [nested, houtgoing]
      refine (OperatorSite.agrees_callWithin equipped inner fuel f b.name args).map
        (fun site => { b with nested := .operator site }) fun _ inner => ?_
      exact ForeignBranch.Coherent.operator rfl call inner

namespace ForeignSite

variable {site : ForeignSite}

theorem Coherent.branch {r : Registry} (coherent : site.Coherent r) {b : ForeignBranch}
    (mem : b ∈ site.branches.entries) : b.Coherent r := by
  obtain ⟨branches⟩ := coherent
  exact branches b mem

theorem Coherent.update {r : Registry} (coherent : site.Coherent r) {branch : ForeignBranch}
    (inner : branch.Coherent r) : (site.update branch).Coherent r := by
  obtain ⟨branches⟩ := coherent
  refine .intro (GuardChain.All.revise branches fun b hb => ?_)
  split
  · exact inner
  · exact hb

/-- A message sent from a foreign site is sent as without memory. -/
theorem agrees_callWith (transparent : onward.Transparent natives fuel)
    (equipped : m.registry.Equipped) (coherent : site.Coherent m.registry) (f : ForeignId)
    (name : String) (args : List Value) :
    Agrees m.registry ForeignSite.Coherent (site.callWith natives fuel onward m f name args)
      (Machine.settle natives fuel (m.performForeign f name args)) := by
  -- putting the branch back is coherent with every registry the call may lead to
  have hupdate : ∀ {site : ForeignSite}, site.Coherent m.registry → ∀ {r' : Registry}
      {b : ForeignBranch}, m.registry.Evolves r' → b.Coherent r' → (site.update b).Coherent r' :=
    fun coherent _ _ evolves inner => (coherent.of_grows equipped.wellFormed
      (evolves.grows equipped.wellFormed)).update inner
  unfold callWith Machine.performForeign
  split
  · next branch h =>
    obtain ⟨b, mem, hb⟩ := GuardChain.exists_of_findMap? h
    split at hb
    · next haccepts =>
      cases hb
      unfold ForeignBranch.accepts at haccepts
      rw [Bool.and_eq_true_iff, beq_iff_eq, beq_iff_eq] at haccepts
      obtain ⟨hname, hcall⟩ := haccepts
      rw [hcall, ← hname]
      exact (ForeignBranch.agrees_perform transparent equipped (coherent.branch mem) f args).map
        site.update (hupdate coherent)
    · cases hb
  · dsimp only
    split
    · refine .of_run (Machine.evolves_settle equipped ?_) fun evolves => ?_
      · exact Machine.evolves_performOutgoing equipped _ f name args
      · exact coherent.of_grows equipped.wellFormed (evolves.grows equipped.wellFormed)
    · have hfresh : (ForeignBranch.fresh site.limits name
          (OutgoingCall.classify m.registry name args)).Coherent m.registry :=
        ForeignBranch.coherent_fresh site.limits name _
      have hinstalled : ({ site with branches := (site.branches.install ForeignBranch.same
          (ForeignBranch.fresh site.limits name
            (OutgoingCall.classify m.registry name args))).2 } : ForeignSite).Coherent
          m.registry := by
        obtain ⟨branches⟩ := coherent
        exact .intro (GuardChain.All.install branches hfresh)
      exact (ForeignBranch.agrees_perform transparent equipped hfresh f args).map _
        (hupdate hinstalled)

end ForeignSite

-- ============================================================ dispatch sites

namespace DispatchSite

/-- A message sent from a dispatch site is sent as without memory. The
induction is on the steps: a nested site has fewer of them. -/
theorem agrees_callWithin : ∀ (fuel : Nat) {site : DispatchSite} {m : Machine} (s : Send),
    m.registry.Equipped → site.Coherent m.registry →
      Agrees m.registry DispatchSite.Coherent (callWithin natives fuel site m s)
        (Machine.run natives m fuel s) := by
  intro fuel
  induction fuel with
  | zero => intro site m s _ _; exact .endless
  | succ fuel ih =>
      intro site m s equipped coherent
      obtain ⟨lookup, foreign⟩ := coherent
      obtain ⟨hmethod, hlookup⟩ := LookupSite.find_eq lookup equipped s.receiver s.name
      rw [Machine.run_eq_runFound]
      unfold callWithin Machine.runFound
      dsimp only
      rw [hmethod]
      split
      · next f hnone hreceiver =>
        have hanswer : Machine.answerWith natives m (m.lookup? s.receiver s.name) s
            = m.performForeign f s.name s.args := by
          unfold Machine.answerWith
          rw [hnone, hreceiver]
        rw [hanswer]
        refine (ForeignSite.agrees_callWith ih equipped foreign f s.name s.args).map
          (DispatchSite.mk _) fun evolves inner => .intro ?_ inner
        exact hlookup.of_grows equipped.wellFormed (evolves.grows equipped.wellFormed)
      · refine .of_run (Machine.evolves_settle equipped ?_) fun evolves => ?_
        · exact Machine.evolves_answerWith equipped _ s
        · have hgrows := evolves.grows equipped.wellFormed
          exact .intro (hlookup.of_grows equipped.wellFormed hgrows)
            (foreign.of_grows equipped.wellFormed hgrows)

end DispatchSite

end ObjectModel
