/-
Call sites stay invisible.

A world is a machine with all the call sites of the code that runs in it. In
any order, sites are made with any limits, messages are sent from them,
definitions are made or refused, and whatever else the machine holds changes
between two calls: foreign objects answer differently, names are interned,
globals are set. All sites are coherent in every world that a started machine
comes to (`World.Coherent.run`), so a call through one of them is the send
that it stands for: the same outcome, the same messages delivered in the same
order, the same machine afterwards.
-/
import ObjectModel.Proofs.Boot.Start
import ObjectModel.Proofs.Site.Transparency

namespace ObjectModel

/-- A machine and the call sites of its code. -/
structure World where
  machine : Machine
  sites : List DispatchSite
  foreignSites : List ForeignSite

namespace World

/-- A machine before any code has run. -/
def fresh (m : Machine) : World := ⟨m, [], []⟩

/-- What happens to a world at once. -/
inductive Step (natives : Natives) : World → World → Prop
  | openSite (w : World) (limits : CacheLimits) :
      Step natives w { w with sites := w.sites ++ [.fresh limits] }
  | openForeignSite (w : World) (limits : CacheLimits) :
      Step natives w { w with foreignSites := w.foreignSites ++ [.fresh limits] }
  /-- A message is sent from a site. -/
  | call {w : World} {i : Nat} {site site' : DispatchSite} {fuel : Nat} {s : Send}
      {outcome : Outcome} {m : Machine} (here : w.sites[i]? = some site)
      (ends : DispatchSite.callWithin natives fuel site w.machine s
        = some (outcome, m, site')) :
      Step natives w { w with machine := m, sites := w.sites.set i site' }
  /-- A message is sent to a foreign object from a foreign site. -/
  | callForeign {w : World} {i : Nat} {site site' : ForeignSite} {fuel : Nat} {f : ForeignId}
      {name : String} {args : List Value} {outcome : Outcome} {m : Machine}
      (here : w.foreignSites[i]? = some site)
      (ends : site.callWith natives fuel (DispatchSite.callWithin natives fuel) w.machine f name
        args = some (outcome, m, site')) :
      Step natives w { w with machine := m, foreignSites := w.foreignSites.set i site' }
  /-- A definition, made or refused. -/
  | operate (w : World) (op : Operation) (valid : op.Valid w.machine.registry) :
      Step natives w
        { w with machine := { w.machine with registry := op.apply w.machine.registry } }
  /-- Anything but the registry changes. -/
  | disturb (w : World) (m : Machine) (same : m.registry = w.machine.registry) :
      Step natives w { w with machine := m }

/-- What happens to a world in the end. -/
inductive Run (natives : Natives) : World → World → Prop
  | refl (w : World) : Run natives w w
  | step {w w' w'' : World} : Run natives w w' → Step natives w' w'' → Run natives w w''

/-- The registry is equipped, and all sites are coherent with it. -/
structure Coherent (w : World) : Prop where
  equipped : w.machine.registry.Equipped
  sites : ∀ site ∈ w.sites, site.Coherent w.machine.registry
  foreignSites : ∀ site ∈ w.foreignSites, site.Coherent w.machine.registry

variable {natives : Natives} {w w' : World}

theorem coherent_fresh {m : Machine} (equipped : m.registry.Equipped) : (fresh m).Coherent where
  equipped := equipped
  sites := by intro site mem; cases mem
  foreignSites := by intro site mem; cases mem

/-- With another machine whose registry evolved, the sites are coherent still. -/
theorem Coherent.withMachine {m : Machine} (coherent : w.Coherent)
    (evolves : w.machine.registry.Evolves m.registry) :
    ({ w with machine := m } : World).Coherent :=
  have grows := evolves.grows coherent.equipped.wellFormed
  { equipped := coherent.equipped.of_evolves evolves
    sites := fun site mem => (coherent.sites site mem).of_grows coherent.equipped.wellFormed grows
    foreignSites := fun site mem =>
      (coherent.foreignSites site mem).of_grows coherent.equipped.wellFormed grows }

/-- One step keeps all sites coherent. -/
theorem Coherent.step (coherent : w.Coherent) (step : Step natives w w') : w'.Coherent := by
  cases step with
  | openSite limits =>
      refine { coherent with sites := fun site mem => ?_ }
      rcases List.mem_append.mp mem with hold | hnew
      · exact coherent.sites site hold
      · rw [List.mem_singleton] at hnew
        subst hnew
        exact DispatchSite.coherent_fresh limits
  | openForeignSite limits =>
      refine { coherent with foreignSites := fun site mem => ?_ }
      rcases List.mem_append.mp mem with hold | hnew
      · exact coherent.foreignSites site hold
      · rw [List.mem_singleton] at hnew
        subst hnew
        exact ForeignSite.coherent_fresh limits
  | call here ends =>
      obtain ⟨hevolves, hsite⟩ := (DispatchSite.agrees_callWithin _ _ coherent.equipped
        (coherent.sites _ (List.mem_of_getElem? here))).ended_coherent ends
      refine { coherent.withMachine hevolves with sites := fun site mem => ?_ }
      rcases List.mem_or_eq_of_mem_set mem with hold | rfl
      · exact (coherent.withMachine hevolves).sites site hold
      · exact hsite
  | callForeign here ends =>
      obtain ⟨hevolves, hsite⟩ := (ForeignSite.agrees_callWith
        (DispatchSite.agrees_callWithin _) coherent.equipped
        (coherent.foreignSites _ (List.mem_of_getElem? here)) _ _ _).ended_coherent ends
      refine { coherent.withMachine hevolves with foreignSites := fun site mem => ?_ }
      rcases List.mem_or_eq_of_mem_set mem with hold | rfl
      · exact (coherent.withMachine hevolves).foreignSites site hold
      · exact hsite
  | operate op valid => exact coherent.withMachine (.single op valid)
  | disturb m same =>
      refine coherent.withMachine ?_
      rw [same]
      exact .refl _

/-- A whole run keeps all sites coherent. -/
theorem Coherent.run (coherent : w.Coherent) (run : Run natives w w') : w'.Coherent := by
  induction run with
  | refl => exact coherent
  | step _ step ih => exact ih.step step

/-- In one step the registry evolves. -/
theorem Coherent.evolves_step (coherent : w.Coherent) (step : Step natives w w') :
    w.machine.registry.Evolves w'.machine.registry := by
  cases step with
  | openSite | openForeignSite => exact .refl _
  | call here ends =>
      exact ((DispatchSite.agrees_callWithin _ _ coherent.equipped
        (coherent.sites _ (List.mem_of_getElem? here))).ended_coherent ends).1
  | callForeign here ends =>
      exact ((ForeignSite.agrees_callWith (DispatchSite.agrees_callWithin _) coherent.equipped
        (coherent.foreignSites _ (List.mem_of_getElem? here)) _ _ _).ended_coherent ends).1
  | operate op valid => exact .single op valid
  | disturb m same =>
      rw [same]
      exact .refl _

/-- In a whole run the registry evolves. -/
theorem Coherent.evolves_run (coherent : w.Coherent) (run : Run natives w w') :
    w.machine.registry.Evolves w'.machine.registry := by
  induction run with
  | refl => exact .refl _
  | step before step ih => exact ih.trans ((coherent.run before).evolves_step step)

/-- The registry of a world that a started machine comes to is launched. -/
theorem launched_of_run {o : Options} {config : NativeConfiguration} {files : FileTree}
    {m : Machine} (started : Machine.start o config files = .ok m) (run : Run natives (fresh m) w) :
    w.machine.registry.Launched :=
  have launched := Machine.launched_start started
  launched.of_evolves ((coherent_fresh launched.equipped).evolves_run run)

end World

/-- In every world that a started machine comes to, a call through a site is
the send that it stands for, however many steps it may make. -/
theorem call_eq_send_of_run {natives : Natives} {o : Options} {config : NativeConfiguration}
    {files : FileTree} {m : Machine} {w : World} (started : Machine.start o config files = .ok m)
    (run : World.Run natives (.fresh m) w) :
    (∀ site ∈ w.sites, ∀ s : Send,
      withoutSite (site.call natives w.machine s) = w.machine.send natives s
        ∧ ∀ fuel, withoutSite (DispatchSite.callWithin natives fuel site w.machine s)
            = Machine.run natives w.machine fuel s)
    ∧ ∀ site ∈ w.foreignSites, ∀ (f : ForeignId) (name : String) (args : List Value),
      withoutSite (site.call natives w.machine f name args)
          = w.machine.sendForeign natives f name args
        ∧ ∀ fuel, withoutSite (site.callWith natives fuel (DispatchSite.callWithin natives fuel)
              w.machine f name args)
            = Machine.settle natives fuel (w.machine.performForeign f name args) := by
  have hcoherent : w.Coherent :=
    (World.coherent_fresh (Machine.launched_start started).equipped).run run
  refine ⟨fun site mem s => ?_, fun site mem f name args => ?_⟩
  · have hagrees : ∀ fuel, withoutSite (DispatchSite.callWithin natives fuel site w.machine s)
        = Machine.run natives w.machine fuel s := fun fuel =>
      (DispatchSite.agrees_callWithin fuel s hcoherent.equipped
        (hcoherent.sites site mem)).withoutSite_eq
    exact ⟨hagrees _, hagrees⟩
  · have hagrees : ∀ fuel, withoutSite (site.callWith natives fuel
          (DispatchSite.callWithin natives fuel) w.machine f name args)
        = Machine.settle natives fuel (w.machine.performForeign f name args) := fun fuel =>
      (ForeignSite.agrees_callWith (DispatchSite.agrees_callWithin fuel) hcoherent.equipped
        (hcoherent.foreignSites site mem) f name args).withoutSite_eq
    exact ⟨hagrees _, hagrees⟩

/-- The send of `1 + 1`. -/
def onePlusOne : Send :=
  ⟨.fixnum ⟨1, by decide, by decide⟩, "+", [.fixnum ⟨1, by decide, by decide⟩]⟩

/-- A site that has sent `1 + 1` before addition was defined anew. -/
theorem call_eq_send_after_redefinition :
    ∃ m w, Machine.start .standard .empty ⟨.emptyDirectory, []⟩ = .ok m
      ∧ World.Run .none (.fresh m) w ∧ w.sites.length = 1
      ∧ ∀ site ∈ w.sites, ∀ s : Send,
          withoutSite (site.call .none w.machine s) = w.machine.send .none s := by
  have hsent : (match Machine.start .standard .empty ⟨.emptyDirectory, []⟩ with
      | .ok m => (DispatchSite.callWithin .none 1 (.fresh .standard) m onePlusOne).isSome
      | .error _ => false) = true := by
    decide +kernel
  cases hm : Machine.start .standard .empty ⟨.emptyDirectory, []⟩ with
  | error e =>
      rw [hm] at hsent
      cases hsent
  | ok m =>
      rw [hm] at hsent
      obtain ⟨⟨outcome, m', site⟩, hcall⟩ := Option.isSome_iff_exists.mp hsent
      have hrun : World.Run .none (.fresh m) ⟨m', [site], []⟩ :=
        .step (.step (.refl _) (.openSite _ .standard)) (.call (i := 0) rfl hcall)
      have hequipped : m'.registry.Equipped :=
        ((World.coherent_fresh (Machine.launched_start hm).equipped).run hrun).equipped
      have hredefined := World.Run.step hrun (.operate _
        (.defineMethod Core.integer "+" (.exactly 1) (.answer .nil))
        (hequipped.has_core (t := Core.integer) (by decide)))
      exact ⟨m, _, rfl, hredefined, rfl, fun site mem s =>
        ((call_eq_send_of_run hm hredefined).1 site mem s).1⟩

end ObjectModel
