/-
The protocol of loading the core library.

A first load asks for the units of its plan in order, each at its turn, and
goes on to the next only if the last one ran without raising. The post-boot
unit, or the end of a plan without it, is preceded by the move to the loaded
state, and the move by a check that all required constants are there. A load
therefore ends in one of a few ways (`StopsAt`), by an induction over the units
that are left, each of which has its turn in a trace. There is no second load:
a life does not go back.
-/
import Mathlib.Logic.Relation
import ObjectModel.Proofs.Boot.Trace

namespace ObjectModel

universe u v u' v'

variable {m m' : Machine}

namespace Machine

-- ======================================================================= lives

/-- What happens in the life of a machine: most things leave its state alone,
and a move leads forward. -/
inductive Goes (m m' : Machine) : Prop
  | on : m'.lifecycle = m.lifecycle → Goes m m'
  | forward {target : LifecycleState} : m.advance target = .ok m' → Goes m m'

/-- A machine later in its life. -/
def Later : Machine → Machine → Prop := Relation.ReflTransGen Goes

theorem Goes.rank_le (goes : m.Goes m') :
    m.lifecycle.rank ≤ m'.lifecycle.rank := by
  cases goes with
  | on same => exact Nat.le_of_eq (by rw [same])
  | @forward target h =>
      rcases Nat.lt_or_ge m.lifecycle.rank target.rank with hlt | hge
      · rw [advance_of_lt hlt] at h
        cases h
        exact Nat.le_of_lt hlt
      · rw [advance_of_le hge] at h
        cases h

/-- A life does not go back. -/
theorem Later.rank_le (later : m.Later m') :
    m.lifecycle.rank ≤ m'.lifecycle.rank := by
  induction later with
  | refl => exact Nat.le_refl _
  | tail _ goes ih => exact ih.trans goes.rank_le

end Machine

namespace CodeLoader

variable {σ : Type u} {υ : Type v}

-- =================================================================== the units

section

variable (plan : LoadPlan) (start : Machine) (code : CodeLoader σ υ) (sources : SourceLoader σ)

/-- Why a load stops, and where: at the unit asked for last, which was not read,
not parsed or raised, or before a unit or the end, as a constant is missing or
the move was made before. -/
inductive StopsAt (s : Record σ) (stop : Machine) : BootError → Prop
  | unread {unit : String} {e : FileError} {state : σ} :
      plan.units[s.visits.length]? = some unit → s.asked.length = s.visits.length + 1 →
      sources.load (start.coreLoadPath ++ unit) state = (.error e, s.state) →
      StopsAt s stop (.file (start.coreLoadPath ++ unit) e)
  | unparsed {unit : String} {source : SourceUnit} {turn : Machine} {e : Raise}
      {state state' : σ} :
      plan.units[s.visits.length]? = some unit → s.asked.length = s.visits.length + 1 →
      sources.load (start.coreLoadPath ++ unit) state = (.ok source, state') →
      s.parses.getLast? = some ⟨turn, stop⟩ →
      code.parse source state' turn = (.error e, s.state, stop) →
      StopsAt s stop (.coreLibraryRaised (start.coreLoadPath ++ unit) e)
  | raised {visit : Visit} {path : String} {e : Raise} :
      s.visits.getLast? = some visit → s.asked.length = s.visits.length →
      visit.path = path → visit.outcome = .error e → visit.after = stop →
      StopsAt s stop (.coreLibraryRaised path e)
  | missing {constant : String} :
      plan.EndsAt s.visits.length → s.asked.length = s.visits.length →
      (∀ visit ∈ s.visits, visit.outcome.isOk) →
      stop.missingConstant? plan.requiredConstants = some constant →
      StopsAt s stop (.missingConstant constant)
  | repeated :
      plan.units[s.visits.length]? = some plan.postBoot →
      plan.postBoot ∈ plan.units.take s.visits.length → s.asked.length = s.visits.length →
      (∀ visit ∈ s.visits, visit.outcome.isOk) →
      StopsAt s stop (.illegalTransition .loaded .loaded)

/-- A failure ends a load in the stage of the unit asked for last. -/
structure Fails (s : Record σ) (stop : Machine) (e : BootError) : Prop where
  trace : Trace plan start (plan.units.take s.asked.length) s stop
  stops : StopsAt plan start code sources s stop e

/-- What the turns of some units come to. -/
def Ends (done : List String) : Loaded (Record σ) → Prop
  | (.ok (), s, m) => Ready plan start done s m
  | (.error e, s, m) => Fails plan start code sources s m e

/-- What comes before the turn of a unit: the move, if it is the post-boot unit. -/
def Turned (unit : String) (done : List String) (s : Record σ) :
    Except BootError Unit × Machine → Prop
  | (.ok (), m) => Trace plan start (done ++ [unit]) s m
  | (.error e, m) => Fails plan start code sources s m e

end

variable {plan : LoadPlan} {start : Machine} {code : CodeLoader σ υ} {sources : SourceLoader σ}
  {done turned : List String} {s : Record σ}

/-- The units asked for so far are a part of the plan. -/
theorem Settled.take_asked {rest : List String} (settled : Settled start done s)
    (hunits : plan.units = done ++ rest) : plan.units.take s.asked.length = done := by
  rw [settled.asked, List.length_map, hunits]
  exact List.take_left

theorem Settled.asked_length (settled : Settled start done s) :
    s.asked.length = s.visits.length := by
  rw [settled.asked, List.length_map, settled.visits]

/-- The end of loading proper fails if a constant is missing. -/
theorem Ready.fails_missing {rest : List String} {constant : String}
    (ready : Ready plan start done s m) (hunits : plan.units = done ++ rest)
    (ends : plan.EndsAt done.length)
    (missing : m.missingConstant? plan.requiredConstants = some constant) :
    Fails plan start code sources s m (.missingConstant constant) where
  trace := by
    rw [ready.settled.take_asked hunits]
    exact ready.trace
  stops := by
    refine .missing ?_ ready.settled.asked_length ready.settled.quiet missing
    rw [ready.settled.visits]
    exact ends

/-- A second post-boot unit is refused, and the move stays made. -/
theorem Ready.fails_repeated {rest : List String} (ready : Ready plan start done s m)
    (hunits : plan.units = done ++ plan.postBoot :: rest) (kept : m.Kept m')
    (before : m.lifecycle = .loaded) (after : m'.lifecycle = .loaded) :
    Fails plan start code sources s m' (.illegalTransition .loaded .loaded) where
  trace := by
    have hmem : plan.postBoot ∈ done :=
      LoadPlan.stage_eq_loaded.mp (ready.trace.lifecycle.symm.trans before)
    have hlt : plan.moment < s.parses.length := by
      rw [ready.settled.parses]
      exact LoadPlan.moment_lt ⟨_, hunits.symm⟩ hmem
    rw [ready.settled.take_asked hunits]
    exact
      { ready.trace with
        kept := ready.trace.kept.trans kept
        lifecycle := after.trans (LoadPlan.stage_of_mem hmem).symm
        moved := fun mem => (ready.trace.moved mem).of_lt hlt m'
        unswitched := fun _ _ notMem => absurd hmem notMem }
  stops := by
    have hmem : plan.postBoot ∈ done :=
      LoadPlan.stage_eq_loaded.mp (ready.trace.lifecycle.symm.trans before)
    refine .repeated ?_ ?_ ready.settled.asked_length ready.settled.quiet
    · rw [ready.settled.visits]
      exact LoadPlan.getElem?_units hunits
    · rw [ready.settled.visits, hunits, List.take_left]
      exact hmem

/-- The move comes before the turn of the post-boot unit, and of no other. -/
theorem Ready.turn_comes {unit : String} {rest : List String}
    (ready : Ready plan start done s m) (sound : start.globals.Sound)
    (hunits : plan.units = done ++ unit :: rest) :
    Turned plan start code sources unit done s
      (if unit = plan.postBoot then m.finishLoading plan.requiredConstants else (.ok (), m)) := by
  split
  · next hunit =>
    subst hunit
    have hends : plan.EndsAt done.length := .inl (LoadPlan.getElem?_units hunits)
    have hfinish := Machine.finish_finishLoading plan.requiredConstants
      (ready.trace.kept.globals sound)
    generalize m.finishLoading plan.requiredConstants = finished at hfinish
    cases hfinish with
    | missing missing => exact ready.fails_missing hunits hends missing
    | refused kept before after => exact ready.fails_repeated hunits kept before after
    | entered entered =>
        refine ready.enter (LoadPlan.moment_eq_length hunits ?_) entered
        intro mem
        exact entered.unloaded (ready.trace.lifecycle.trans (LoadPlan.stage_of_mem mem))
  · next hunit => exact ready.trace.turn_of_ne hunit

/-- A unit that ran settles its turn. -/
theorem Settled.of_ran {unit : String} {visit : Visit} (settled : Settled start done s)
    (ok : visit.outcome.isOk) (state : σ) (parse : Parse) :
    Settled start (done ++ [unit])
      ⟨state, s.asked ++ [start.coreLoadPath ++ unit], s.parses ++ [parse],
        s.visits ++ [visit]⟩ where
  asked := by simp [settled.asked]
  parses := by simp [settled.parses]
  visits := by simp [settled.visits]
  quiet := by
    intro other mem
    rcases List.mem_append.mp mem with hold | hnew
    · exact settled.quiet other hold
    · rw [List.mem_singleton.mp hnew]
      exact ok

/-- The run of a unit at its turn. -/
theorem Trace.of_visit {unit : String} {source : SourceUnit} {compiled : υ} {outcome : Outcome}
    {s₀ s₁ s₂ : σ} {before after : Machine} (trace : Trace plan start (done ++ [unit]) s m)
    (regular : code.Regular) (settled : Settled start done s)
    (hunits : done ++ [unit] <+: plan.units)
    (hparse : code.parse source s₀ m = (.ok compiled, s₁, before))
    (hrun : code.run compiled .topLevel (.object before.mainObject) s₁ before
      = (outcome, s₂, after)) :
    Trace plan start (done ++ [unit])
      ⟨s₂, s.asked ++ [start.coreLoadPath ++ unit], s.parses ++ [⟨m, before⟩], s.visits
        ++ [⟨start.coreLoadPath ++ unit, .topLevel, .object before.mainObject, before, outcome,
          after⟩]⟩ after := by
  refine ((trace.of_asked settled hunits s₀).of_parsed regular hparse).of_ran regular hunits
    ?_ ?_ ?_ hrun
  · dsimp only
    rw [← settled.asked_length]
    exact List.getElem?_concat_length
  · simp [settled.parses]
  · simp [settled.visits]

/-- The turn of a unit: at its end the next one may come, or the load failed. -/
theorem Trace.ends_turn {unit : String} {rest : List String} {loaded : Loaded (Record σ)}
    (trace : Trace plan start (done ++ [unit]) s m) (regular : code.Regular)
    (settled : Settled start done s) (hunits : plan.units = done ++ unit :: rest)
    (turn : Turn code sources (start.coreLoadPath ++ unit) s m loaded) :
    Ends plan start code sources (done ++ [unit]) loaded := by
  have hprefix : done ++ [unit] <+: plan.units :=
    ⟨rest, by rw [hunits, List.append_assoc, List.singleton_append]⟩
  have hasked : (s.asked ++ [start.coreLoadPath ++ unit]).length = s.visits.length + 1 := by
    simp [settled.asked_length]
  have htake : plan.units.take (s.asked ++ [start.coreLoadPath ++ unit]).length
      = done ++ [unit] := by
    rw [hasked, settled.visits, List.prefix_iff_eq_take.mp hprefix, List.length_append,
      List.length_singleton]
  have hunit : plan.units[s.visits.length]? = some unit := by
    rw [settled.visits]
    exact LoadPlan.getElem?_units hunits
  cases turn with
  | unread hload =>
      refine ⟨?_, .unread hunit hasked hload⟩
      dsimp only
      rw [htake]
      exact trace.of_asked settled hprefix _
  | unparsed hload hparse =>
      refine ⟨?_, .unparsed hunit hasked hload List.getLast?_concat hparse⟩
      dsimp only
      rw [htake]
      exact (trace.of_asked settled hprefix s.state).of_parsed regular hparse
  | raised hload hparse hrun =>
      refine ⟨?_, .raised List.getLast?_concat ?_ rfl rfl rfl⟩
      · dsimp only
        rw [htake]
        exact trace.of_visit regular settled hprefix hparse hrun
      · dsimp only
        rw [hasked, List.length_append, List.length_singleton]
  | ran hload hparse hrun =>
      refine ⟨trace.of_visit regular settled hprefix hparse hrun, settled.of_ran rfl _ _, ?_⟩
      have hlength : (done ++ [unit]).length
          = (entrance start :: s.visits.map (·.after)).length := by
        simp [settled.visits]
      rw [List.map_append, ← List.cons_append, hlength]
      exact List.getElem?_concat_length

/-- The units that are left. -/
theorem ends_loadUnits (regular : code.Regular) (sound : start.globals.Sound) :
    ∀ (rest : List String) {done : List String} {s : Record σ} {m : Machine},
      plan.units = done ++ rest → Ready plan start done s m →
      Ends plan start code sources plan.units
        (code.recorded.loadUnits sources.recorded plan rest s m) := by
  intro rest
  induction rest with
  | nil =>
      intro done s m hunits ready
      rw [List.append_nil] at hunits
      rw [hunits]
      exact ready
  | cons unit rest ih =>
      intro done s m hunits ready
      have hcomes : Turned plan start code sources unit done s _ :=
        ready.turn_comes sound hunits
      unfold loadUnits
      dsimp only
      generalize (if unit = plan.postBoot then m.finishLoading plan.requiredConstants
        else (.ok (), m)) = ready' at hcomes
      rcases ready' with ⟨e | _, m₁⟩
      · exact hcomes
      · dsimp only
        have hturn : Turn code sources (m₁.coreLoadPath ++ unit) s m₁ _ := turn_loadUnit _ s m₁
        rw [hcomes.kept.coreLoadPath] at hturn ⊢
        have hends := hcomes.ends_turn regular ready.settled hunits hturn
        generalize code.recorded.loadUnit sources.recorded (start.coreLoadPath ++ unit) s m₁
          = loaded at hends
        rcases loaded with ⟨e | _, s', m'⟩
        · exact hends
        · refine ih ?_ hends
          rw [hunits, List.append_assoc, List.singleton_append]

-- ============================================================== whole loads

section

variable (plan start code sources)

/-- How a first load goes. -/
structure FirstLoad (result : Except BootError Unit) (s : Record σ) (stop : Machine) : Prop where
  /-- Units are asked for in the order of the plan, each at its place. -/
  in_order : s.asked <+: plan.units.map (start.coreLoadPath ++ ·)
  /-- What was asked for runs at top level and sees the stage of its place. -/
  placed : ∀ {i visit}, s.visits[i]? = some visit → Placed plan start s i visit
  /-- The state changes once: runs before the moment of the move see a machine
  that is still loading, all others a loaded one. -/
  once : ∀ {i visit}, s.visits[i]? = some visit →
    (visit.before.lifecycle = .loaded ↔ plan.moment ≤ i)
  /-- Whatever is not read, not parsed or raises is the last. -/
  went_on : ∀ {i}, i + 1 < s.asked.length →
    ∃ visit, s.visits[i]? = some visit ∧ visit.outcome.isOk
  /-- A machine is loaded by the move alone. -/
  moved : stop.lifecycle = .loaded → Moved plan start s stop
  /-- A load succeeds only if every unit ran and none raised. -/
  completed : result = .ok () → stop.lifecycle = .loaded
    ∧ s.visits.length = plan.units.length ∧ ∀ visit ∈ s.visits, visit.outcome.isOk
  /-- A failed load says why it stopped, and is left in the stage of the unit
  that was asked for last. -/
  stopped : ∀ {e}, result = .error e → StopsAt plan start code sources s stop e
    ∧ stop.lifecycle = plan.stage (plan.units.take s.asked.length)
  /-- Without the move a machine is still loading. -/
  unmoved : stop.lifecycle ≠ .loaded → stop.lifecycle = .loadingCoreLibrary
  /-- Its flags are those it was started with, then, unless they were switched over
  before the load or by a unit. -/
  flags_kept : stop.lifecycle ≠ .loaded → start.flags = none → LeavesFlags s →
    stop.debug = (start.options.debug, stop)
      ∧ stop.verbosity = (start.options.verbosity.value, stop)

end

/-- Nothing was asked for at the entrance. -/
theorem ready_entrance (start : Machine) (s : σ) :
    Ready plan start [] (.blank s) (entrance start) where
  trace :=
    { kept := Machine.kept_lifecycle start _
      in_order := List.nil_prefix
      placed := fun h => by cases h
      went_on := fun h => absurd h (Nat.not_lt_zero _)
      lifecycle := (LoadPlan.stage_of_notMem List.not_mem_nil).symm
      moved := fun mem => absurd mem List.not_mem_nil
      unswitched := fun fresh _ _ => fresh }
  settled := ⟨rfl, rfl, rfl, fun _ mem => absurd mem List.not_mem_nil⟩
  last := rfl

theorem Trace.notMem_of_unloaded (trace : Trace plan start turned s m)
    (unloaded : m.lifecycle ≠ .loaded) : plan.postBoot ∉ turned :=
  fun mem => unloaded (trace.lifecycle.trans (LoadPlan.stage_of_mem mem))

theorem Trace.unmoved (trace : Trace plan start turned s m) (unloaded : m.lifecycle ≠ .loaded) :
    m.lifecycle = .loadingCoreLibrary :=
  trace.lifecycle.trans (LoadPlan.stage_of_notMem (trace.notMem_of_unloaded unloaded))

/-- A trace without the move says that the flags are the options. -/
theorem Trace.flags_kept (trace : Trace plan start turned s m) (unloaded : m.lifecycle ≠ .loaded)
    (fresh : start.flags = none) (leaves : LeavesFlags s) :
    m.debug = (start.options.debug, m) ∧ m.verbosity = (start.options.verbosity.value, m) := by
  unfold Machine.debug Machine.verbosity
  rw [trace.unswitched fresh leaves (trace.notMem_of_unloaded unloaded), trace.kept.options]
  exact ⟨rfl, rfl⟩

/-- A trace with the move has it in its record. -/
theorem Trace.moved_of_loaded (trace : Trace plan start turned s m)
    (loaded : m.lifecycle = .loaded) : Moved plan start s m :=
  trace.moved (LoadPlan.stage_eq_loaded.mp (trace.lifecycle.symm.trans loaded))

theorem Fails.firstLoad {e : BootError} (fails : Fails plan start code sources s m e) :
    FirstLoad plan start code sources (.error e) s m where
  in_order := fails.trace.in_order
  placed := fails.trace.placed
  once := fails.trace.loaded_iff
  went_on := fails.trace.went_on
  moved := fails.trace.moved_of_loaded
  completed := nofun
  stopped h := by
    cases h
    exact ⟨fails.stops, fails.trace.lifecycle⟩
  unmoved := fails.trace.unmoved
  flags_kept := fails.trace.flags_kept

theorem Trace.firstLoad (trace : Trace plan start turned s m)
    (settled : Settled start plan.units s) (loaded : m.lifecycle = .loaded) :
    FirstLoad plan start code sources (.ok ()) s m where
  in_order := trace.in_order
  placed := trace.placed
  once := trace.loaded_iff
  went_on := trace.went_on
  moved := trace.moved_of_loaded
  completed _ := ⟨loaded, settled.visits, settled.quiet⟩
  stopped := nofun
  unmoved unloaded := absurd loaded unloaded
  flags_kept unloaded := absurd loaded unloaded

/-- A recorded first load. -/
theorem firstLoad_recorded (regular : code.Regular) (initializing : start.lifecycle = .initializing)
    (sound : start.globals.Sound) (sources : SourceLoader σ) (plan : LoadPlan) (s : σ) {result : Except BootError Unit} {record : Record σ} {stop : Machine}
    (h : code.recorded.loadCore sources.recorded plan (.blank s) start
      = (result, record, stop)) :
    FirstLoad plan start code sources result record stop := by
  have hadvance : start.advance .loadingCoreLibrary = .ok (entrance start) := by
    refine Machine.advance_of_lt ?_
    rw [initializing]
    decide
  have hends : Ends plan start code sources plan.units _ :=
    ends_loadUnits regular sound plan.units (List.nil_append _).symm (ready_entrance start s)
  unfold loadCore at h
  rw [hadvance] at h
  dsimp only at h
  generalize code.recorded.loadUnits sources.recorded plan plan.units (.blank s) (entrance start)
    = loaded at hends h
  rcases loaded with ⟨e | _, s', m'⟩
  · cases h
    exact hends.firstLoad
  · dsimp only at h
    split at h
    · next hloaded =>
      cases h
      exact hends.trace.firstLoad hends.settled hloaded
    · next hunloaded =>
      have hnotMem : plan.postBoot ∉ plan.units :=
        fun mem => hunloaded (hends.trace.lifecycle.trans (LoadPlan.stage_of_mem mem))
      have hfinish := Machine.finish_finishLoading plan.requiredConstants
        (hends.trace.kept.globals sound)
      generalize m'.finishLoading plan.requiredConstants = finished at hfinish h
      cases hfinish with
      | missing missing =>
          cases h
          exact (hends.fails_missing (List.append_nil _).symm (.inr ⟨rfl, hnotMem⟩)
            missing).firstLoad
      | refused _ before _ => exact absurd before hunloaded
      | entered entered =>
          cases h
          exact (hends.enter (List.idxOf_eq_length hnotMem) entered).firstLoad hends.settled
            entered.loaded

-- ================================================================= later loads

/-- A machine that has begun to load does not load again: nothing is read, and
nothing runs. -/
theorem loadCore_of_rank_le (code : CodeLoader σ υ) (sources : SourceLoader σ) (plan : LoadPlan)
    (s : σ) (begun : LifecycleState.loadingCoreLibrary.rank ≤ m.lifecycle.rank) :
    code.loadCore sources plan s m
      = (.error (.illegalTransition m.lifecycle .loadingCoreLibrary), s, m) := by
  unfold loadCore
  rw [Machine.advance_of_le begun]

/-- The protocol of loading: how a first load goes, and that there is no other. -/
theorem loadCore_protocol (regular : code.Regular) (initializing : start.lifecycle = .initializing)
    (sound : start.globals.Sound) (sources : SourceLoader σ) (plan : LoadPlan) (s : σ) :
    ∃ result record stop,
      code.loadCore sources plan s start = (result, record.state, stop)
      ∧ code.recorded.loadCore sources.recorded plan (.blank s) start = (result, record, stop)
      ∧ FirstLoad plan start code sources result record stop
      ∧ ∀ {σ' : Type u'} {υ' : Type v'} (code' : CodeLoader σ' υ') (sources' : SourceLoader σ')
          (plan' : LoadPlan) (s' : σ') (later : Machine), stop.Later later →
          code'.loadCore sources' plan' s' later
            = (.error (.illegalTransition later.lifecycle .loadingCoreLibrary), s', later) := by
  rcases hload : code.recorded.loadCore sources.recorded plan (.blank s) start
    with ⟨result, record, stop⟩
  have hfirst : FirstLoad plan start code sources result record stop :=
    firstLoad_recorded regular initializing sound sources plan s hload
  have hunrecorded : (result, record.state, stop) = code.loadCore sources plan s start := by
    have h : unrecorded _ = code.loadCore sources plan s start :=
      unrecorded_loadCore plan (.blank s) start
    rw [hload] at h
    exact h
  have hbegun : LifecycleState.loadingCoreLibrary.rank ≤ stop.lifecycle.rank := by
    by_cases hloaded : stop.lifecycle = .loaded
    · rw [hloaded]
      decide
    · rw [hfirst.unmoved hloaded]
  refine ⟨result, record, stop, hunrecorded.symm, rfl, hfirst, ?_⟩
  intro σ' υ' code' sources' plan' s' later hlater
  exact loadCore_of_rank_le code' sources' plan' s' (hbegun.trans hlater.rank_le)

/-- A plan with the post-boot unit in the middle. -/
def middlePlan : LoadPlan := ⟨["/pre.rb", postBootUnit, "/post.rb"], postBootUnit, ["READY"]⟩

/-- Its units: the first defines the constant, the last renames the program. -/
def middleSources (path : String) : Sources :=
  .memory (((Bindings.empty.set (path ++ "/pre.rb") "const Object READY").set
    (path ++ postBootUnit) "").set (path ++ "/post.rb") "global $0 done")

/-- A started machine loads it. -/
theorem exists_load_middlePlan : ∃ start seen stop,
    Machine.start .standard .empty ⟨.emptyDirectory, []⟩ = .ok start
      ∧ Script.loader.loadCore (middleSources start.coreLoadPath) middlePlan [] start
        = (.ok (), seen, stop) := by
  have hloads : ((Machine.start .standard .empty ⟨.emptyDirectory, []⟩).toOption.all fun start =>
      (Script.loader.loadCore (middleSources start.coreLoadPath) middlePlan [] start).1.isOk)
        = true := by
    decide +kernel
  obtain ⟨start, hstart⟩ := Machine.exists_start
  rw [hstart] at hloads
  dsimp only [Except.toOption, Option.all] at hloads
  rcases hload : Script.loader.loadCore (middleSources start.coreLoadPath) middlePlan [] start
    with ⟨e | _, seen, stop⟩
  · rw [hload] at hloads
    cases hloads
  · exact ⟨start, seen, stop, hstart, hload⟩

theorem loadCore_protocol_of_middlePlan : ∃ start record stop,
    Machine.start .standard .empty ⟨.emptyDirectory, []⟩ = .ok start
      ∧ Script.loader.loadCore (middleSources start.coreLoadPath) middlePlan [] start
        = (.ok (), record.state, stop)
      ∧ FirstLoad middlePlan start Script.loader (middleSources start.coreLoadPath).loader (.ok ())
        record stop
      ∧ Script.loader.loadCore (middleSources start.coreLoadPath) middlePlan record.state stop
        = (.error (.illegalTransition .loaded .loadingCoreLibrary), record.state, stop) := by
  obtain ⟨start, seen, stop, hstart, hload⟩ := exists_load_middlePlan
  obtain ⟨result, record, stop', h, -, hfirst, hagain⟩ :=
    loadCore_protocol Script.regular_loader (Machine.fresh_start hstart).initializing
      (Machine.fresh_start hstart).sound (middleSources start.coreLoadPath).loader middlePlan []
  rw [hload] at h
  cases h
  refine ⟨start, record, stop, hstart, hload, hfirst, ?_⟩
  have hrefused := hagain Script.loader (middleSources start.coreLoadPath).loader middlePlan
    record.state stop .refl
  rw [(hfirst.completed rfl).1] at hrefused
  exact hrefused

/-- Code that runs the hook before its time, sets the flags and raises. -/
def earlyHook : CodeLoader Unit SourceUnit where
  parse source s m := (.ok source, s, m)
  run _ _ _ s m :=
    match m.afterLoad [] with
    | .error _ => (.ok .nil, s, m)
    | .ok m =>
      let (_, m) := m.setGlobal debugGlobal (.bool true)
      let (_, m) := m.setGlobal verboseGlobal .nil
      (.error (m.registry.raise Core.runtimeError "early"), s, m)

theorem regular_earlyHook : earlyHook.Regular where
  parse _ _ m := (Machine.Plain.refl m).steady
  run _ _ _ _ m := by
    unfold earlyHook
    dsimp only
    split
    · exact (Machine.Plain.refl m).steady
    · next hooked h =>
      have hdebug := (hooked.plain_setGlobal debugGlobal (.bool true)).steady
      exact ((Machine.steady_afterLoad h).trans hdebug).trans
        (Machine.plain_setGlobal _ verboseGlobal .nil).steady

/-- A plan of one unit, and a unit without text. -/
def earlyPlan : LoadPlan := ⟨["/pre.rb"], postBootUnit, []⟩
def earlySources (path : String) : Sources := .memory (Bindings.empty.set (path ++ "/pre.rb") "")

/-- Such code does not move the life of a machine, and the load that it stops comes
before the move; but the flags are not what the machine was started with. -/
theorem flags_ne_options_of_earlyHook : earlyHook.Regular ∧ ∃ start e stop,
    Machine.start .standard .empty ⟨.emptyDirectory, []⟩ = .ok start
      ∧ earlyHook.loadCore (earlySources start.coreLoadPath).loader earlyPlan () start
        = (.error e, (), stop)
      ∧ stop.lifecycle = .loadingCoreLibrary
      ∧ stop.debug.1 ≠ start.options.debug
      ∧ stop.verbosity.1 ≠ start.options.verbosity.value := by
  have hstops : ((Machine.start .standard .empty ⟨.emptyDirectory, []⟩).toOption.all fun start =>
      let (result, _, stop) :=
        earlyHook.loadCore (earlySources start.coreLoadPath).loader earlyPlan () start
      !result.isOk && decide (stop.lifecycle = .loadingCoreLibrary
        ∧ stop.debug.1 ≠ start.options.debug
        ∧ stop.verbosity.1 ≠ start.options.verbosity.value)) = true := by
    decide +kernel
  obtain ⟨start, hstart⟩ := Machine.exists_start
  rw [hstart] at hstops
  dsimp only [Except.toOption, Option.all] at hstops
  rcases hload : earlyHook.loadCore (earlySources start.coreLoadPath).loader earlyPlan () start
    with ⟨e | _, _, stop⟩
  · rw [hload] at hstops
    obtain ⟨hstage, hdebug, hverbosity⟩ := of_decide_eq_true hstops
    exact ⟨regular_earlyHook, start, e, stop, hstart, hload, hstage, hdebug, hverbosity⟩
  · rw [hload] at hstops
    cases hstops

end CodeLoader

end ObjectModel
