/-
The lives of sites.

A site lives from the moment that it is made with its limits. It is asked any
number of times, and answers or raises; between two questions the registry
evolves in any way, and whatever else a machine holds changes. What was asked is
its history, and a site at the end of any life is occupied as its history says
(`occupied_of_life`): it does not matter which of the questions were hits, what
was stale, or when other sites were asked. All sites of any world that a started
machine comes to have lived such lives (`World.lived_of_run`).
-/
import ObjectModel.Proofs.Site.History
import ObjectModel.Proofs.Site.Run

namespace ObjectModel

variable {σ α : Type} {natives : Natives} {limits : CacheLimits} {first m m' : Machine}

/-- What a site may go through, and what was asked of it meanwhile: `ask` says
how a question is answered. -/
inductive Life (ask : Machine → σ → α → Machine → σ → Prop) (first : Machine) (fresh : σ) :
    History α → Machine → σ → Prop
  | made : Life ask first fresh [] first fresh
  | asked {history : History α} {m m' : Machine} {site site' : σ} {x : α}
      (life : Life ask first fresh history m site) (answered : ask m site x m' site') :
      Life ask first fresh (history ++ [(m, x)]) m' site'
  | meanwhile {history : History α} {m m' : Machine} {site : σ}
      (life : Life ask first fresh history m site)
      (evolves : m.registry.Evolves m'.registry) : Life ask first fresh history m' site

/-- What a site is by its history, it is at the end of a life, if questions keep
it so and the growth of the registry does. -/
theorem Life.keeps (Fits : Registry → History α → σ → Prop)
    {ask : Machine → σ → α → Machine → σ → Prop} {fresh site : σ} {history : History α}
    (life : Life ask first fresh history m site) (equipped : first.registry.Equipped)
    (made : Fits first.registry [] fresh)
    (asked : ∀ {history m site x m' site'}, m.registry.Equipped → history.Before m.registry →
      Fits m.registry history site → ask m site x m' site' →
        m.registry.Evolves m'.registry ∧ Fits m'.registry (history ++ [(m, x)]) site')
    (grows : ∀ {history site r r'}, r.WellFormed → r.Grows r' → Fits r history site →
      Fits r' history site) :
    m.registry.Equipped ∧ history.Before m.registry ∧ Fits m.registry history site := by
  induction life with
  | made => exact ⟨equipped, (fun q mem => nomatch mem), made⟩
  | asked _ answered ih =>
      obtain ⟨hequipped, hbefore, hfits⟩ := ih
      obtain ⟨hevolves, hmore⟩ := asked hequipped hbefore hfits answered
      have hgrows := hevolves.grows hequipped.wellFormed
      exact ⟨hequipped.of_evolves hevolves, hbefore.concat hgrows.epoch_le, hmore⟩
  | meanwhile _ evolves ih =>
      obtain ⟨hequipped, hbefore, hfits⟩ := ih
      have hgrows := evolves.grows hequipped.wellFormed
      exact ⟨hequipped.of_evolves evolves,
        fun q mem => Nat.le_trans (hbefore q mem) hgrows.epoch_le,
        grows hequipped.wellFormed hgrows hfits⟩

-- ============================================================ sites of all kinds

/-- The life of a site for logical types, which was asked for types of values. -/
abbrev LogicalTypeSite.Life (limits : CacheLimits) (first : Machine) :
    History Value → Machine → LogicalTypeSite → Prop :=
  ObjectModel.Life (fun m site v m' site' => m' = m ∧ site' = (site.resolve m v).2) first
    (.fresh limits)

/-- The life of a site for meta types, which was asked for types of values. -/
abbrev MetaTypeSite.Life (limits : CacheLimits) (first : Machine) :
    History Value → Machine → MetaTypeSite → Prop :=
  ObjectModel.Life (fun m site v m' site' => m' = m ∧ site' = (site.resolve m v).2) first
    (.fresh limits)

/-- The life of a foreign site, which was asked to send to foreign objects. -/
abbrev ForeignSite.Life (natives : Natives) (limits : CacheLimits) (first : Machine) :
    History ForeignSend → Machine → ForeignSite → Prop :=
  ObjectModel.Life (fun m site s m' site' => ∃ fuel outcome,
    site.callWith natives fuel (DispatchSite.callWithin natives fuel) m s.object s.name s.args
      = some (outcome, m', site')) first (.fresh limits)

/-- The life of a dispatch site, which was asked to send. -/
abbrev DispatchSite.Life (natives : Natives) (limits : CacheLimits) (first : Machine) :
    History Send → Machine → DispatchSite → Prop :=
  ObjectModel.Life (fun m site s m' site' => ∃ fuel outcome,
    DispatchSite.callWithin natives fuel site m s = some (outcome, m', site')) first
    (.fresh limits)

namespace Life

variable (equipped : first.registry.Equipped)

include equipped

theorem occupied_logicalType {history : History Value} {site : LogicalTypeSite}
    (life : LogicalTypeSite.Life limits first history m site) : site.Occupied limits history := by
  refine (life.keeps (fun _ history site => site.Occupied limits history) equipped
    (LogicalTypeSite.occupied_fresh limits) ?_ fun _ _ occupied => occupied).2.2
  rintro history m site v m' site' - - occupied ⟨rfl, rfl⟩
  exact ⟨.refl _, occupied.resolve _ v⟩

theorem occupied_metaType {history : History Value} {site : MetaTypeSite}
    (life : MetaTypeSite.Life limits first history m site) : site.Occupied limits history := by
  refine (life.keeps (fun r history site => site.Coherent r ∧ site.Occupied limits history)
    equipped ⟨MetaTypeSite.coherent_fresh limits, MetaTypeSite.occupied_fresh limits⟩ ?_ ?_).2.2.2
  · rintro history m site v m' site' - - ⟨coherent, occupied⟩ ⟨rfl, rfl⟩
    exact ⟨.refl _, (MetaTypeSite.resolve_eq coherent v).2, occupied.resolve coherent v⟩
  · exact fun _ grows ⟨coherent, occupied⟩ => ⟨coherent.of_grows grows, occupied⟩

theorem occupied_foreign {history : History ForeignSend} {site : ForeignSite}
    (life : ForeignSite.Life natives limits first history m site) :
    site.Occupied limits history := by
  refine (life.keeps (fun r history site => site.Coherent r ∧ site.Occupied limits history)
    equipped ⟨ForeignSite.coherent_fresh limits, ForeignSite.occupied_fresh limits⟩ ?_ ?_).2.2.2
  · rintro history m site s m' site' equipped before ⟨coherent, occupied⟩ ⟨fuel, outcome, ends⟩
    obtain ⟨hevolves, hcoherent⟩ := (ForeignSite.agrees_callWith
      (DispatchSite.agrees_callWithin fuel) equipped coherent _ _ _).ended_coherent ends
    exact ⟨hevolves, hcoherent, occupied.callWith (DispatchSite.occupied_callWithin limits fuel)
      equipped before coherent ends⟩
  · exact fun wf grows ⟨coherent, occupied⟩ => ⟨coherent.of_grows wf grows, occupied⟩

theorem occupied_dispatch {history : History Send} {site : DispatchSite}
    (life : DispatchSite.Life natives limits first history m site) :
    site.Occupied limits history := by
  refine (life.keeps (fun r history site => site.Coherent r ∧ site.Occupied limits history)
    equipped ⟨DispatchSite.coherent_fresh limits, DispatchSite.occupied_fresh limits⟩ ?_ ?_).2.2.2
  · rintro history m site s m' site' equipped before ⟨coherent, occupied⟩ ⟨fuel, outcome, ends⟩
    obtain ⟨hevolves, hcoherent⟩ :=
      (DispatchSite.agrees_callWithin fuel s equipped coherent).ended_coherent ends
    exact ⟨hevolves, hcoherent,
      DispatchSite.occupied_callWithin limits fuel s equipped before coherent occupied ends⟩
  · exact fun wf grows ⟨coherent, occupied⟩ => ⟨coherent.of_grows wf grows, occupied⟩

end Life

-- =================================================================== worlds

/-- All sites of a world have lived, from a machine on. -/
structure World.Lived (natives : Natives) (first : Machine) (w : World) : Prop where
  sites : ∀ site ∈ w.sites, ∃ limits history,
    DispatchSite.Life natives limits first history w.machine site
  foreignSites : ∀ site ∈ w.foreignSites, ∃ limits history,
    ForeignSite.Life natives limits first history w.machine site

namespace World

variable {w w' : World}

/-- Sites that have nothing to do with what happens live on. -/
theorem Lived.meanwhile (lived : w.Lived natives first)
    (evolves : w.machine.registry.Evolves m.registry) :
    ({ w with machine := m } : World).Lived natives first where
  sites site mem := by
    obtain ⟨limits, history, life⟩ := lived.sites site mem
    exact ⟨limits, history, .meanwhile life evolves⟩
  foreignSites site mem := by
    obtain ⟨limits, history, life⟩ := lived.foreignSites site mem
    exact ⟨limits, history, .meanwhile life evolves⟩

/-- One step is a moment in the life of each site. -/
theorem Lived.step (lived : w.Lived natives first) (coherent : w.Coherent)
    (made : first.registry.Evolves w.machine.registry) (step : Step natives w w') :
    w'.Lived natives first := by
  have hevolves := coherent.evolves_step step
  cases step with
  | openSite limits =>
      refine { lived with sites := fun site mem => ?_ }
      rcases List.mem_append.mp mem with hold | hnew
      · exact lived.sites site hold
      · rw [List.mem_singleton.mp hnew]
        exact ⟨limits, [], .meanwhile .made made⟩
  | openForeignSite limits =>
      refine { lived with foreignSites := fun site mem => ?_ }
      rcases List.mem_append.mp mem with hold | hnew
      · exact lived.foreignSites site hold
      · rw [List.mem_singleton.mp hnew]
        exact ⟨limits, [], .meanwhile .made made⟩
  | call here ends =>
      refine { lived.meanwhile hevolves with sites := fun site mem => ?_ }
      rcases List.mem_or_eq_of_mem_set mem with hold | rfl
      · exact (lived.meanwhile hevolves).sites site hold
      · obtain ⟨limits, history, life⟩ := lived.sites _ (List.mem_of_getElem? here)
        exact ⟨limits, _, .asked life ⟨_, _, ends⟩⟩
  | @callForeign _ _ _ _ f name args _ _ here ends =>
      refine { lived.meanwhile hevolves with foreignSites := fun site mem => ?_ }
      rcases List.mem_or_eq_of_mem_set mem with hold | rfl
      · exact (lived.meanwhile hevolves).foreignSites site hold
      · obtain ⟨limits, history, life⟩ := lived.foreignSites _ (List.mem_of_getElem? here)
        exact ⟨limits, history ++ [(w.machine, ⟨f, name, args⟩)], .asked life ⟨_, _, ends⟩⟩
  | operate op valid => exact lived.meanwhile hevolves
  | disturb m same => exact lived.meanwhile hevolves

/-- In every world that a machine comes to, all sites have lived. -/
theorem lived_of_run (equipped : first.registry.Equipped)
    (run : World.Run natives (.fresh first) w) : w.Lived natives first := by
  have coherent := coherent_fresh equipped
  induction run with
  | refl => exact ⟨(fun site mem => nomatch mem), fun site mem => nomatch mem⟩
  | step before step ih =>
      exact ih.step (coherent.run before) (coherent.evolves_run before) step

end World

-- ================================================================ what is held

/-- At the end of any life, with any limits, the chains of a site and of all
sites in it hold what the history says. So a site for meta types remembers as many
objects as it met with singleton types, and a foreign site the names and classes
of the sends that it saw, in that order, until they are more than its limit. A
dispatch site has given up exactly if it once looked up more pairs of a meta type
and a name than its limit while the epoch stayed the same, so never because of
redefinitions. -/
theorem occupied_of_life (natives : Natives) {o : Options} {config : NativeConfiguration}
    {files : FileTree} (started : Machine.start o config files = .ok first)
    (limits : CacheLimits) :
    (∀ {history m site}, LogicalTypeSite.Life limits first history m site →
      site.Occupied limits history)
    ∧ (∀ {history m site}, MetaTypeSite.Life limits first history m site →
      site.Occupied limits history
        ∧ ((firstSeen history.distinguished).length ≤ limits.identities →
            site.identities.size = (firstSeen history.distinguished).length))
    ∧ (∀ {history m site}, ForeignSite.Life natives limits first history m site →
      site.Occupied limits history
        ∧ ((firstSeen (history.map ForeignSend.branch)).length ≤ limits.dispatch →
            site.remembered = firstSeen (history.map ForeignSend.branch)))
    ∧ ∀ {history m site}, DispatchSite.Life natives limits first history m site →
      site.Occupied limits history
        ∧ (site.lookup.lookups.megamorphic = true
            ↔ ∃ epoch, limits.lookups < (firstSeen (history.during epoch).pairs).length)
        ∧ ((firstSeen history.pairs).length ≤ limits.lookups →
            site.lookup.lookups.megamorphic = false) := by
  have equipped := (Machine.launched_start started).equipped
  refine ⟨fun life => life.occupied_logicalType equipped, fun life => ?_, fun life => ?_,
    fun life => ?_⟩
  · have occupied := life.occupied_metaType equipped
    refine ⟨occupied, fun few => ?_⟩
    rw [← (occupied.identities.kept few).2, List.length_map]
    rfl
  · have occupied := life.occupied_foreign equipped
    obtain ⟨-, branches, -⟩ := id occupied
    exact ⟨occupied, fun few => (branches.kept few).2⟩
  · have occupied := life.occupied_dispatch equipped
    obtain ⟨lookup, -⟩ := id occupied
    exact ⟨occupied, lookup.lookups.megamorphic_iff, lookup.lookups.not_megamorphic⟩

/-- A machine on which addition is defined anew. -/
def Machine.withoutAddition (m : Machine) : Machine :=
  { m with
    registry := (Operation.defineMethod Core.integer "+" (.exactly 1) (.answer .nil)).apply
      m.registry }

/-- Lives of a site that sends `1 + 1` before and after addition is defined anew,
and of a foreign site that asks an object for its size. -/
theorem exists_lives :
    ∃ first, Machine.start .standard .empty ⟨.emptyDirectory, []⟩ = .ok first
      ∧ (∃ m site, ForeignSite.Life .none ⟨1, 1, 1, 1, 1⟩ first
          [(first, ⟨⟨0⟩, "size", []⟩)] m site)
      ∧ ∃ m m' site, first.registry.epoch < m.registry.epoch
        ∧ DispatchSite.Life .none ⟨1, 1, 1, 1, 1⟩ first
          [(first, onePlusOne), (m, onePlusOne)] m' site := by
  have hsent : ((Machine.start .standard .empty ⟨.emptyDirectory, []⟩).toOption.bind fun m =>
      (DispatchSite.callWithin .none 1 (.fresh ⟨1, 1, 1, 1, 1⟩) m onePlusOne).bind fun sent =>
        (DispatchSite.callWithin .none 1 sent.2.2 sent.2.1.withoutAddition onePlusOne).filter
          fun _ => m.registry.epoch < sent.2.1.withoutAddition.registry.epoch).isSome = true := by
    decide +kernel
  have hasked : ((Machine.start .standard .empty ⟨.emptyDirectory, []⟩).toOption.bind fun m =>
      ForeignSite.callWith .none 1 (DispatchSite.callWithin .none 1) (.fresh ⟨1, 1, 1, 1, 1⟩) m
        ⟨0⟩ "size" []).isSome = true := by
    decide +kernel
  cases hfirst : Machine.start .standard .empty ⟨.emptyDirectory, []⟩ with
  | error e =>
      rw [hfirst] at hsent
      cases hsent
  | ok first =>
      rw [hfirst] at hsent hasked
      obtain ⟨⟨_, m₀, foreign⟩, hasked⟩ := Option.isSome_iff_exists.mp hasked
      obtain ⟨⟨_, m', site'⟩, hsent⟩ := Option.isSome_iff_exists.mp hsent
      obtain ⟨_, ⟨⟩, hsent⟩ := Option.bind_eq_some_iff.mp hsent
      obtain ⟨⟨_, m, site⟩, hbefore, hafter⟩ := Option.bind_eq_some_iff.mp hsent
      obtain ⟨hafter, hepoch⟩ := Option.filter_eq_some_iff.mp hafter
      have hequipped := (Machine.launched_start hfirst).equipped
      have hevolves : first.registry.Evolves m.registry :=
        ((DispatchSite.agrees_callWithin 1 onePlusOne hequipped
          (DispatchSite.coherent_fresh _)).ended_coherent hbefore).1
      have hvalid : m.registry.Has Core.integer :=
        (hequipped.of_evolves hevolves).has_core (by decide)
      exact ⟨first, rfl, ⟨m₀, foreign, .asked .made ⟨1, _, hasked⟩⟩, _, m', site',
        of_decide_eq_true hepoch, .asked (.meanwhile (.asked .made ⟨1, _, hbefore⟩)
          (.single (.defineMethod Core.integer "+" (.exactly 1) (.answer .nil)) hvalid))
          ⟨1, _, hafter⟩⟩

/-- With room for one entry everywhere, the site has not given up, and the foreign
one remembers its question. A site that was asked for two kinds of values has given
up, and one that was asked twice for one kind has not. -/
theorem occupied_of_sends :
    ∃ first, Machine.start .standard .empty ⟨.emptyDirectory, []⟩ = .ok first
      ∧ (∃ site, LogicalTypeSite.Life ⟨1, 1, 1, 1, 1⟩ first
            [(first, .nil), (first, .object ⟨1⟩)] first site
          ∧ site.kinds.megamorphic = true)
      ∧ (∃ site, MetaTypeSite.Life ⟨1, 1, 1, 1, 1⟩ first
            [(first, .nil), (first, .nil)] first site
          ∧ site.kinds.megamorphic = false)
      ∧ (∃ m site, ForeignSite.Life .none ⟨1, 1, 1, 1, 1⟩ first
            [(first, ⟨⟨0⟩, "size", []⟩)] m site
          ∧ site.remembered = [("size", .readOrInvoke)])
      ∧ ∃ m m' site, first.registry.epoch < m.registry.epoch
          ∧ DispatchSite.Life .none ⟨1, 1, 1, 1, 1⟩ first
            [(first, onePlusOne), (m, onePlusOne)] m' site
          ∧ site.lookup.lookups.megamorphic = false := by
  obtain ⟨first, hfirst, ⟨m₀, foreign, hforeignLife⟩, m, m', site, hepoch, hdispatchLife⟩ :=
    exists_lives
  obtain ⟨hlogical, hmeta, hforeign, hdispatch⟩ := occupied_of_life .none hfirst ⟨1, 1, 1, 1, 1⟩
  have hlogicalLife : LogicalTypeSite.Life ⟨1, 1, 1, 1, 1⟩ first
      [(first, .nil), (first, .object ⟨1⟩)] first _ :=
    .asked (.asked .made ⟨rfl, rfl⟩) ⟨rfl, rfl⟩
  have hmetaLife : MetaTypeSite.Life ⟨1, 1, 1, 1, 1⟩ first
      [(first, .nil), (first, .nil)] first _ :=
    .asked (.asked .made ⟨rfl, rfl⟩) ⟨rfl, rfl⟩
  have hsize : ForeignSend.branch (first, ⟨⟨0⟩, "size", []⟩) = ("size", .readOrInvoke) := by
    have hoperator : OutgoingCall.isOperator "size" = false := by decide +kernel
    have hassignment : OutgoingCall.isAssignment "size" = false := by decide +kernel
    simp [ForeignSend.branch, OutgoingCall.classify, OutgoingCall.ofIndexing?, hoperator,
      hassignment]
  have hremembered := (hforeign hforeignLife).2
  rw [List.map_singleton, hsize] at hremembered
  refine ⟨first, hfirst, ⟨_, hlogicalLife, ?_⟩, ⟨_, hmetaLife, ?_⟩,
    ⟨m₀, foreign, hforeignLife, hremembered (by decide)⟩, m, m', site, hepoch, hdispatchLife,
    (hdispatch hdispatchLife).2.2 ?_⟩
  · refine (hlogical hlogicalLife).kinds.megamorphic_iff.mpr ?_
    show 1 < (firstSeen [ValueKind.nil, ValueKind.object]).length
    decide
  · refine ((hmeta hmetaLife).1.kinds.kept ?_).1
    show (firstSeen [ValueKind.nil, ValueKind.nil]).length ≤ 1
    decide
  · show (firstSeen [(Core.integer, "+"), (Core.integer, "+")]).length ≤ 1
    decide

end ObjectModel
