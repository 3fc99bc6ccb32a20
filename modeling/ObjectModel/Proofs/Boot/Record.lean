/-
A record of what a load did.

The loaders of a load are wrapped: the wrapped ones do as the loaders do, and
keep beside their state which paths were asked for, every parse, and every run of
a unit with its surroundings and its outcome. The record is only ever written, so
a recorded load is the load (`unrecorded_loadCore`); what is proved of the record
is proved of the load.
-/
import ObjectModel.Boot.Load

namespace ObjectModel

universe u v

/-- One time that a unit was parsed: the machine before and after. -/
structure Parse where
  before : Machine
  after : Machine

/-- One run of a unit. -/
structure Visit where
  /-- The path that the unit was asked for by. -/
  path : String
  context : DeclarationContext
  receiver : Value
  /-- The machine that the run saw. -/
  before : Machine
  outcome : Outcome
  after : Machine

/-- A state of loaders with a record beside it; the latest entries are last. -/
structure Record (σ : Type u) where
  state : σ
  /-- The paths that were asked for. -/
  asked : List String
  parses : List Parse
  visits : List Visit

namespace Record

variable {σ : Type u} {υ : Type v}

/-- Nothing was asked for yet. -/
def blank (s : σ) : Record σ := ⟨s, [], [], []⟩

/-- A unit was asked for. -/
def afterLoad (s : Record σ) (path : String) :
    Except FileError SourceUnit × σ → Except FileError SourceUnit × Record σ
  | (result, state) => (result, { s with state, asked := s.asked ++ [path] })

/-- A unit was parsed in `m`. -/
def afterParse (s : Record σ) (m : Machine) :
    Except Raise υ × σ × Machine → Except Raise υ × Record σ × Machine
  | (result, state, m') => (result, { s with state, parses := s.parses ++ [⟨m, m'⟩] }, m')

/-- The unit asked for last ran in `m`. -/
def afterRun (s : Record σ) (context : DeclarationContext) (receiver : Value) (m : Machine) :
    Outcome × σ × Machine → Outcome × Record σ × Machine
  | (outcome, state, m') =>
    let visit : Visit := ⟨s.asked.getLastD "", context, receiver, m, outcome, m'⟩
    (outcome, { s with state, visits := s.visits ++ [visit] }, m')

/-- Whenever code had the machine, to parse a unit or to run it, it left the machine
so related to the one that it found. -/
structure Always (R : Machine → Machine → Prop) (s : Record σ) : Prop where
  parsed : ∀ parse ∈ s.parses, R parse.before parse.after
  ran : ∀ visit ∈ s.visits, R visit.before visit.after

/-- What is in a record stays there. -/
structure Grows (s s' : Record σ) : Prop where
  parses : s.parses <+: s'.parses
  visits : s.visits <+: s'.visits

variable {s s' s'' : Record σ} {R : Machine → Machine → Prop}

theorem Grows.refl (s : Record σ) : s.Grows s := ⟨List.prefix_refl _, List.prefix_refl _⟩

theorem Grows.trans (h : s.Grows s') (h' : s'.Grows s'') : s.Grows s'' :=
  ⟨h.parses.trans h'.parses, h.visits.trans h'.visits⟩

/-- A record says no more than one that grew from it. -/
theorem Always.of_grows (always : s'.Always R) (grows : s.Grows s') : s.Always R :=
  ⟨fun parse mem => always.parsed parse (grows.parses.subset mem),
    fun visit mem => always.ran visit (grows.visits.subset mem)⟩

end Record

/-- The source loader, with what it was asked for. -/
def SourceLoader.recorded {σ : Type u} (sources : SourceLoader σ) : SourceLoader (Record σ) where
  load path s := s.afterLoad path (sources.load path s.state)

namespace CodeLoader

variable {σ : Type u} {υ : Type v} (code : CodeLoader σ υ) (sources : SourceLoader σ)

/-- The code loader, with a record of what it parsed and ran. -/
def recorded : CodeLoader (Record σ) υ where
  parse source s m := s.afterParse m (code.parse source s.state m)
  run unit context receiver s m :=
    s.afterRun context receiver m (code.run unit context receiver s.state m)

/-- The record of a load. -/
def record (plan : LoadPlan) (s : σ) (m : Machine) : Record σ :=
  (code.recorded.loadCore sources.recorded plan (.blank s) m).2.1

/-- What a step of loading ends in, without the record. -/
def unrecorded (loaded : Loaded (Record σ)) : Loaded σ :=
  (loaded.1, loaded.2.1.state, loaded.2.2)

-- ================================================================= single turns

/-- What the turn of a unit comes to. Each step of it that was reached is in the
record: the unit was asked for, it was parsed, it ran. -/
inductive Turn (path : String) (s : Record σ) (m : Machine) : Loaded (Record σ) → Prop
  | unread {e : FileError} {state : σ} :
      sources.load path s.state = (.error e, state) →
      Turn path s m (.error (.file path e), ⟨state, s.asked ++ [path], s.parses, s.visits⟩, m)
  | unparsed {source : SourceUnit} {e : Raise} {state₀ state : σ} {stop : Machine} :
      sources.load path s.state = (.ok source, state₀) →
      code.parse source state₀ m = (.error e, state, stop) →
      Turn path s m
        (.error (.coreLibraryRaised path e),
          ⟨state, s.asked ++ [path], s.parses ++ [⟨m, stop⟩], s.visits⟩, stop)
  | raised {source : SourceUnit} {unit : υ} {e : Raise} {state₀ state₁ state : σ}
      {before after : Machine} :
      sources.load path s.state = (.ok source, state₀) →
      code.parse source state₀ m = (.ok unit, state₁, before) →
      code.run unit .topLevel (.object before.mainObject) state₁ before
        = (.error e, state, after) →
      Turn path s m
        (.error (.coreLibraryRaised path e),
          ⟨state, s.asked ++ [path], s.parses ++ [⟨m, before⟩], s.visits
            ++ [⟨path, .topLevel, .object before.mainObject, before, .error e, after⟩]⟩, after)
  | ran {source : SourceUnit} {unit : υ} {v : Value} {state₀ state₁ state : σ}
      {before after : Machine} :
      sources.load path s.state = (.ok source, state₀) →
      code.parse source state₀ m = (.ok unit, state₁, before) →
      code.run unit .topLevel (.object before.mainObject) state₁ before
        = (.ok v, state, after) →
      Turn path s m
        (.ok (),
          ⟨state, s.asked ++ [path], s.parses ++ [⟨m, before⟩], s.visits
            ++ [⟨path, .topLevel, .object before.mainObject, before, .ok v, after⟩]⟩, after)

variable {code sources}

theorem recorded_load {path : String} {s : Record σ} {result : Except FileError SourceUnit}
    {state : σ} (h : sources.load path s.state = (result, state)) :
    sources.recorded.load path s = (result, { s with state, asked := s.asked ++ [path] }) := by
  show s.afterLoad path (sources.load path s.state) = _
  rw [h]
  rfl

theorem recorded_parse {source : SourceUnit} {s : Record σ} {m m' : Machine}
    {result : Except Raise υ} {state : σ}
    (h : code.parse source s.state m = (result, state, m')) :
    code.recorded.parse source s m
      = (result, { s with state, parses := s.parses ++ [⟨m, m'⟩] }, m') := by
  show s.afterParse m (code.parse source s.state m) = _
  rw [h]
  rfl

theorem recorded_run {unit : υ} {context : DeclarationContext} {receiver : Value} {s : Record σ}
    {m m' : Machine} {outcome : Outcome} {state : σ} {path : String} {asked : List String}
    (h : code.run unit context receiver s.state m = (outcome, state, m'))
    (hasked : s.asked = asked ++ [path]) :
    code.recorded.run unit context receiver s m
      = (outcome,
        { s with state, visits := s.visits ++ [⟨path, context, receiver, m, outcome, m'⟩] },
        m') := by
  show s.afterRun context receiver m (code.run unit context receiver s.state m) = _
  rw [h]
  unfold Record.afterRun
  rw [hasked, List.getLastD_concat]

theorem turn_loadUnit (path : String) (s : Record σ) (m : Machine) :
    Turn code sources path s m (code.recorded.loadUnit sources.recorded path s m) := by
  unfold loadUnit
  rcases hload : sources.load path s.state with ⟨e | source, state₀⟩
  · rw [recorded_load hload]
    exact .unread hload
  · rw [recorded_load hload]
    dsimp only
    rcases hparse : code.parse source state₀ m with ⟨e | unit, state₁, before⟩
    · rw [recorded_parse hparse]
      exact .unparsed hload hparse
    · rw [recorded_parse hparse]
      dsimp only
      rcases hrun : code.run unit .topLevel (.object before.mainObject) state₁ before
        with ⟨e | v, state, after⟩
      · rw [recorded_run hrun rfl]
        exact .raised hload hparse hrun
      · rw [recorded_run hrun rfl]
        exact .ran hload hparse hrun

/-- The record of a turn goes on from the one before it. -/
theorem Turn.grows {path : String} {s : Record σ} {m : Machine} {loaded : Loaded (Record σ)}
    (turn : Turn code sources path s m loaded) : s.Grows loaded.2.1 := by
  cases turn with
  | unread => exact ⟨List.prefix_refl _, List.prefix_refl _⟩
  | unparsed => exact ⟨List.prefix_append _ _, List.prefix_refl _⟩
  | raised => exact ⟨List.prefix_append _ _, List.prefix_append _ _⟩
  | ran => exact ⟨List.prefix_append _ _, List.prefix_append _ _⟩

/-- What code does at every turn the record says of this one. -/
theorem Turn.always {path : String} {s : Record σ} {m : Machine} {loaded : Loaded (Record σ)}
    {R : Machine → Machine → Prop} (turn : Turn code sources path s m loaded)
    (parse : ∀ source s m, R m (code.parse source s m).2.2)
    (run : ∀ unit context receiver s m, R m (code.run unit context receiver s m).2.2)
    (always : s.Always R) : loaded.2.1.Always R := by
  have hparse : ∀ {source s₀ result state before}, code.parse source s₀ m = (result, state, before) →
      ∀ parse ∈ s.parses ++ [⟨m, before⟩], R parse.before parse.after := by
    intro source s₀ result state before h
    rw [List.forall_mem_append, List.forall_mem_singleton]
    have hR := parse source s₀ m
    rw [h] at hR
    exact ⟨always.parsed, hR⟩
  have hrun : ∀ {unit context receiver s₀ outcome state before after},
      code.run unit context receiver s₀ before = (outcome, state, after) →
      ∀ visit ∈ s.visits ++ [⟨path, context, receiver, before, outcome, after⟩],
        R visit.before visit.after := by
    intro unit context receiver s₀ outcome state before after h
    rw [List.forall_mem_append, List.forall_mem_singleton]
    have hR := run unit context receiver s₀ before
    rw [h] at hR
    exact ⟨always.ran, hR⟩
  cases turn with
  | unread => exact ⟨always.parsed, always.ran⟩
  | unparsed _ hparsed => exact ⟨hparse hparsed, always.ran⟩
  | raised _ hparsed hran => exact ⟨hparse hparsed, hrun hran⟩
  | ran _ hparsed hran => exact ⟨hparse hparsed, hrun hran⟩

-- ======================================================= the record is no part

/-- The turn of a unit is the same without the record. -/
theorem Turn.unrecorded {path : String} {s : Record σ} {m : Machine} {loaded : Loaded (Record σ)}
    (turn : Turn code sources path s m loaded) :
    unrecorded loaded = code.loadUnit sources path s.state m := by
  unfold loadUnit
  cases turn with
  | unread hload => rw [hload]; rfl
  | unparsed hload hparse => rw [hload]; dsimp only; rw [hparse]; rfl
  | raised hload hparse hrun => rw [hload]; dsimp only; rw [hparse]; dsimp only; rw [hrun]; rfl
  | ran hload hparse hrun => rw [hload]; dsimp only; rw [hparse]; dsimp only; rw [hrun]; rfl

theorem unrecorded_loadUnits (plan : LoadPlan) : ∀ (units : List String) (s : Record σ)
    (m : Machine), unrecorded (code.recorded.loadUnits sources.recorded plan units s m)
      = code.loadUnits sources plan units s.state m := by
  intro units
  induction units with
  | nil => intro s m; rfl
  | cons unit rest ih =>
      intro s m
      unfold loadUnits
      dsimp only
      split
      · rfl
      · next m₁ _ =>
        rw [← (turn_loadUnit (m₁.coreLoadPath ++ unit) s m₁).unrecorded]
        rcases code.recorded.loadUnit sources.recorded (m₁.coreLoadPath ++ unit) s m₁
          with ⟨_ | _, s, m⟩
        · rfl
        · exact ih s m

/-- A recorded load is the load. -/
theorem unrecorded_loadCore (plan : LoadPlan) (s : Record σ) (m : Machine) :
    unrecorded (code.recorded.loadCore sources.recorded plan s m)
      = code.loadCore sources plan s.state m := by
  unfold loadCore
  split
  · rfl
  · next m₁ _ =>
    rw [← unrecorded_loadUnits]
    rcases code.recorded.loadUnits sources.recorded plan plan.units s m₁ with ⟨_ | _, s, m⟩
    · rfl
    · dsimp only [unrecorded]
      split
      · rfl
      · rfl

-- ========================================================== records of all code

section

variable {R : Machine → Machine → Prop} (plan : LoadPlan)
  (parse : ∀ source s m, R m (code.parse source s m).2.2)
  (run : ∀ unit context receiver s m, R m (code.run unit context receiver s m).2.2)

include parse run

theorem always_loadUnits : ∀ (units : List String) (s : Record σ) (m : Machine), s.Always R →
    (code.recorded.loadUnits sources.recorded plan units s m).2.1.Always R := by
  intro units
  induction units with
  | nil => intro s m always; exact always
  | cons unit rest ih =>
      intro s m always
      unfold loadUnits
      dsimp only
      split
      · exact always
      · next m₁ _ =>
        have hmade : Turn code sources (m₁.coreLoadPath ++ unit) s m₁ _ := turn_loadUnit _ s m₁
        have hturn := hmade.always parse run always
        generalize code.recorded.loadUnit sources.recorded (m₁.coreLoadPath ++ unit) s m₁
          = loaded at hturn
        rcases loaded with ⟨_ | _, s₂, m₂⟩
        · exact hturn
        · exact ih s₂ m₂ hturn

/-- What code does at every turn a record says of all turns. -/
theorem always_record (s : σ) (m : Machine) : (code.record sources plan s m).Always R := by
  have hblank : (Record.blank s).Always R :=
    ⟨fun _ mem => absurd mem List.not_mem_nil, fun _ mem => absurd mem List.not_mem_nil⟩
  unfold record loadCore
  split
  · exact hblank
  · next m₁ _ =>
    have hloaded : Record.Always R (code.recorded.loadUnits sources.recorded plan plan.units
        (.blank s) m₁).2.1 := always_loadUnits plan parse run plan.units (.blank s) m₁ hblank
    generalize code.recorded.loadUnits sources.recorded plan plan.units (.blank s) m₁
      = loaded at hloaded
    rcases loaded with ⟨_ | _, s₂, m₂⟩
    · exact hloaded
    · dsimp only
      split
      · exact hloaded
      · exact hloaded

end

end CodeLoader

end ObjectModel
