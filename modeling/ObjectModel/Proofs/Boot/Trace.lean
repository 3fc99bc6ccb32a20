/-
What is known at any moment of a load.

The units of a plan have their turns in order, and the turns that came say what
state the machine is in (`LoadPlan.stage`): the first turn of the post-boot unit
comes with the move to the loaded state. A trace says what holds of the record
and the machine at any moment (`Trace`): what was asked for, how each unit ran
and what it saw, and between which machines the move was made. Asking for a
unit, parsing it, running it and making the move keep it.
-/
import Mathlib.Data.List.Basic
import ObjectModel.Proofs.Boot.Loader
import ObjectModel.Proofs.Boot.Record
import ObjectModel.Proofs.Places

namespace ObjectModel

universe u v

-- ====================================================================== plans

namespace LoadPlan

variable {plan : LoadPlan} {done rest turned : List String}

/-- The state of a machine's life when the turn of these units came. -/
def stage (plan : LoadPlan) (turned : List String) : LifecycleState :=
  if plan.postBoot ∈ turned then .loaded else .loadingCoreLibrary

/-- The number of units before the move to the loaded state. -/
def moment (plan : LoadPlan) : Nat := plan.units.idxOf plan.postBoot

/-- The post-boot unit has place `n`, or it is not in the plan and the plan
ends there. -/
def EndsAt (plan : LoadPlan) (n : Nat) : Prop :=
  plan.units[n]? = some plan.postBoot ∨ (n = plan.units.length ∧ plan.postBoot ∉ plan.units)

theorem stage_of_mem (mem : plan.postBoot ∈ turned) : plan.stage turned = .loaded := if_pos mem

theorem stage_of_notMem (notMem : plan.postBoot ∉ turned) :
    plan.stage turned = .loadingCoreLibrary := if_neg notMem

theorem stage_eq_loaded : plan.stage turned = .loaded ↔ plan.postBoot ∈ turned := by
  unfold stage
  split
  · next h => exact ⟨fun _ => h, fun _ => rfl⟩
  · next h => exact ⟨nofun, fun mem => absurd mem h⟩

/-- Another unit's turn does not change the stage. -/
theorem stage_concat_of_ne {unit : String} (ne : unit ≠ plan.postBoot) :
    plan.stage (done ++ [unit]) = plan.stage done := by
  have hmem : plan.postBoot ∈ done ++ [unit] ↔ plan.postBoot ∈ done := by
    rw [List.mem_append, List.mem_singleton]
    exact ⟨fun h => h.resolve_right fun heq => ne heq.symm, .inl⟩
  unfold stage
  rw [if_congr hmem rfl rfl]

/-- The next unit has the place after those that are done. -/
theorem getElem?_units {unit : String} (hunits : plan.units = done ++ unit :: rest) :
    plan.units[done.length]? = some unit := by
  rw [hunits, List.getElem?_append_right (Nat.le_refl _), Nat.sub_self, List.getElem?_cons_zero]

/-- The move comes before the end of any turns with the post-boot unit. -/
theorem moment_lt (hunits : turned <+: plan.units) (mem : plan.postBoot ∈ turned) :
    plan.moment < turned.length := by
  obtain ⟨rest, hunits⟩ := hunits
  unfold moment
  rw [← hunits, List.idxOf_append_of_mem mem]
  exact List.idxOf_lt_length_iff.mpr mem

/-- The move comes at the first turn of the post-boot unit. -/
theorem moment_eq_length (hunits : plan.units = done ++ plan.postBoot :: rest)
    (notMem : plan.postBoot ∉ done) : plan.moment = done.length := by
  unfold moment
  rw [hunits, List.idxOf_append_of_notMem notMem, List.idxOf_cons_self, Nat.add_zero]

/-- The stage is that of a loaded machine from the moment of the move on. -/
theorem stage_take_eq_loaded {n : Nat} (hn : n ≤ plan.units.length) :
    plan.stage (plan.units.take n) = .loaded ↔ plan.moment < n := by
  rw [stage_eq_loaded]
  by_cases mem : plan.postBoot ∈ plan.units
  · exact List.mem_take_iff_idxOf_lt mem
  · have hmoment : plan.moment = plan.units.length := List.idxOf_eq_length mem
    rw [hmoment]
    exact ⟨fun h => absurd (List.mem_of_mem_take h) mem, fun h => absurd h (Nat.not_lt.mpr hn)⟩

end LoadPlan

namespace CodeLoader

variable {σ : Type u} {υ : Type v}

-- ===================================================================== records

section

variable (plan : LoadPlan) (start : Machine)

/-- The machine that the first turn finds. -/
def entrance : Machine := { start with lifecycle := .loadingCoreLibrary }

/-- The `i`-th run is that of the `i`-th unit asked for, at top level with the
main object as its receiver, and sees the stage of its place in the plan. -/
structure Placed (s : Record σ) (i : Nat) (visit : Visit) : Prop where
  path : s.asked[i]? = some visit.path
  context : visit.context = .topLevel
  receiver : visit.receiver = .object start.mainObject
  before : visit.before.lifecycle = plan.stage (plan.units.take (i + 1))
  after : visit.after.lifecycle = visit.before.lifecycle

/-- The move was made: from the machine that the run before its moment left,
to the one that the turn after it found, or that was left in the end. -/
def Moved (s : Record σ) (stop : Machine) : Prop :=
  ∃ here moved, (entrance start :: s.visits.map (·.after))[plan.moment]? = some here
    ∧ (s.parses.map (·.before) ++ [stop])[plan.moment]? = some moved
    ∧ Machine.Entered plan.requiredConstants here moved

/-- All units of a part of the plan were asked for, parsed and run, and none
raised. -/
structure Settled (done : List String) (s : Record σ) : Prop where
  asked : s.asked = done.map (start.coreLoadPath ++ ·)
  parses : s.parses.length = done.length
  visits : s.visits.length = done.length
  quiet : ∀ visit ∈ s.visits, visit.outcome.isOk

/-- Code did not switch the flags over, which is what the hook at the end of loading
does. -/
def LeavesFlags (s : Record σ) : Prop := s.Always fun m m' => m.flags = none → m'.flags = none

/-- A record and a machine at a moment of a load, when the turn of some units
came. -/
structure Trace (turned : List String) (s : Record σ) (m : Machine) : Prop where
  kept : start.Kept m
  in_order : s.asked <+: plan.units.map (start.coreLoadPath ++ ·)
  placed : ∀ {i visit}, s.visits[i]? = some visit → Placed plan start s i visit
  /-- A unit is asked for only if the one before it ran and did not raise. -/
  went_on : ∀ {i}, i + 1 < s.asked.length →
    ∃ visit, s.visits[i]? = some visit ∧ visit.outcome.isOk
  lifecycle : m.lifecycle = plan.stage turned
  moved : plan.postBoot ∈ turned → Moved plan start s m
  unswitched : start.flags = none → LeavesFlags s → plan.postBoot ∉ turned → m.flags = none

/-- The moment before a unit's turn. -/
structure Ready (done : List String) (s : Record σ) (m : Machine) : Prop where
  trace : Trace plan start done s m
  settled : Settled start done s
  last : (entrance start :: s.visits.map (·.after))[done.length]? = some m

end

variable {plan : LoadPlan} {start : Machine} {code : CodeLoader σ υ} {sources : SourceLoader σ}
  {done turned : List String} {s s' : Record σ} {m m' : Machine}

/-- A move stays in a record to which something is added. -/
theorem Moved.of_longer (moved : Moved plan start s m) (visits : s.visits <+: s'.visits)
    (parses : s.parses.map (·.before) ++ [m] <+: s'.parses.map (·.before) ++ [m']) :
    Moved plan start s' m' := by
  obtain ⟨here, entered, hhere, hentered, h⟩ := moved
  refine ⟨here, entered, getElem?_of_longer ?_ hhere, getElem?_of_longer parses hentered, h⟩
  exact List.cons_prefix_cons.mpr ⟨rfl, visits.map _⟩

/-- A move that was made before the last turn does not concern the machine that
is left in the end. -/
theorem Moved.of_lt (moved : Moved plan start s m) (lt : plan.moment < s.parses.length)
    (m' : Machine) : Moved plan start s m' := by
  obtain ⟨here, entered, hhere, hentered, h⟩ := moved
  refine ⟨here, entered, hhere, ?_, h⟩
  have hlt : plan.moment < (s.parses.map (·.before)).length := by
    rw [List.length_map]
    exact lt
  rw [List.getElem?_append_left hlt] at hentered ⊢
  exact hentered

-- ================================================================ single steps

/-- The turn of a unit that is not the post-boot unit comes without a move. -/
theorem Trace.turn_of_ne {unit : String} (trace : Trace plan start done s m)
    (ne : unit ≠ plan.postBoot) : Trace plan start (done ++ [unit]) s m :=
  { trace with
    lifecycle := trace.lifecycle.trans (LoadPlan.stage_concat_of_ne ne).symm
    moved := fun mem => by
      rcases List.mem_append.mp mem with hdone | hunit
      · exact trace.moved hdone
      · exact absurd (List.mem_singleton.mp hunit).symm ne
    unswitched := fun fresh leaves notMem =>
      trace.unswitched fresh leaves fun mem => notMem (List.mem_append_left _ mem) }

/-- The turn of the post-boot unit, or the end, comes with the move. -/
theorem Ready.enter (ready : Ready plan start done s m)
    (moment : plan.moment = done.length)
    (entered : Machine.Entered plan.requiredConstants m m') :
    Trace plan start (done ++ [plan.postBoot]) s m' :=
  have hmem : plan.postBoot ∈ done ++ [plan.postBoot] := List.mem_concat_self
  { ready.trace with
    kept := ready.trace.kept.trans entered.kept
    lifecycle := entered.loaded.trans (LoadPlan.stage_of_mem hmem).symm
    moved := fun _ => by
      refine ⟨m, m', ?_, ?_, entered⟩
      · rw [moment]
        exact ready.last
      · rw [moment, ← ready.settled.parses, ← List.length_map (·.before)]
        exact List.getElem?_concat_length
    unswitched := fun _ _ notMem => absurd hmem notMem }

/-- A unit is asked for. -/
theorem Trace.of_asked {unit : String} (trace : Trace plan start turned s m)
    (settled : Settled start done s) (hunits : done ++ [unit] <+: plan.units) (state : σ) :
    Trace plan start turned
      ⟨state, s.asked ++ [start.coreLoadPath ++ unit], s.parses, s.visits⟩ m where
  kept := trace.kept
  in_order := by
    have hasked := hunits.map (start.coreLoadPath ++ ·)
    rw [List.map_append, ← settled.asked] at hasked
    exact hasked
  placed h :=
    { trace.placed h with
      path := getElem?_of_longer (List.prefix_append _ _) (trace.placed h).path }
  went_on {i} h := by
    have hi : i < s.visits.length := by
      rw [List.length_append, List.length_singleton, settled.asked, List.length_map] at h
      rw [settled.visits]
      omega
    exact ⟨s.visits[i], List.getElem?_eq_getElem hi, settled.quiet _ (List.getElem_mem hi)⟩
  lifecycle := trace.lifecycle
  moved mem := (trace.moved mem).of_longer (List.prefix_refl _) (List.prefix_refl _)
  unswitched fresh leaves :=
    trace.unswitched fresh (leaves.of_grows ⟨List.prefix_refl _, List.prefix_refl _⟩)

/-- A unit is parsed. -/
theorem Trace.of_parsed {source : SourceUnit} {result : Except Raise υ} {s₀ state : σ}
    (trace : Trace plan start turned s m) (regular : code.Regular)
    (h : code.parse source s₀ m = (result, state, m')) :
    Trace plan start turned ⟨state, s.asked, s.parses ++ [⟨m, m'⟩], s.visits⟩ m' where
  kept := trace.kept.trans (regular.of_parse h).kept
  in_order := trace.in_order
  placed h := { trace.placed h with path := (trace.placed h).path }
  went_on := trace.went_on
  lifecycle := (regular.of_parse h).lifecycle.trans trace.lifecycle
  moved mem := by
    refine (trace.moved mem).of_longer (List.prefix_refl _) ?_
    rw [List.map_append]
    exact List.prefix_append _ _
  unswitched fresh leaves notMem := by
    have hbefore := trace.unswitched fresh
      (leaves.of_grows ⟨List.prefix_append _ _, List.prefix_refl _⟩) notMem
    exact leaves.parsed _ List.mem_concat_self hbefore

/-- A unit runs. -/
theorem Trace.of_ran {path : String} {compiled : υ} {outcome : Outcome} {s₀ state : σ}
    (trace : Trace plan start turned s m) (regular : code.Regular)
    (hunits : turned <+: plan.units) (asked : s.asked[s.visits.length]? = some path)
    (parses : s.parses.length = turned.length) (visits : s.visits.length + 1 = turned.length)
    (h : code.run compiled .topLevel (.object m.mainObject) s₀ m = (outcome, state, m')) :
    Trace plan start turned
      ⟨state, s.asked, s.parses,
        s.visits ++ [⟨path, .topLevel, .object m.mainObject, m, outcome, m'⟩]⟩ m' where
  kept := trace.kept.trans (regular.of_run h).kept
  in_order := trace.in_order
  placed {i visit} hvisit := by
    rcases getElem?_concat_cases hvisit with hold | ⟨hi, hnew⟩
    · exact { trace.placed hold with path := (trace.placed hold).path }
    · subst hi hnew
      refine ⟨asked, rfl, congrArg Value.object trace.kept.mainObject, ?_,
        (regular.of_run h).lifecycle⟩
      rw [visits, ← List.prefix_iff_eq_take.mp hunits]
      exact trace.lifecycle
  went_on hi := by
    obtain ⟨visit, hvisit, hok⟩ := trace.went_on hi
    exact ⟨visit, getElem?_of_longer (List.prefix_append _ _) hvisit, hok⟩
  lifecycle := (regular.of_run h).lifecycle.trans trace.lifecycle
  moved mem := by
    have hlt : plan.moment < s.parses.length := by
      rw [parses]
      exact LoadPlan.moment_lt hunits mem
    exact ((trace.moved mem).of_lt hlt m').of_longer (List.prefix_append _ _) (List.prefix_refl _)
  unswitched fresh leaves notMem := by
    have hbefore := trace.unswitched fresh
      (leaves.of_grows ⟨List.prefix_refl _, List.prefix_append _ _⟩) notMem
    exact leaves.ran _ List.mem_concat_self hbefore

/-- The state of the machine's life changes once: a run sees a loaded machine if
it does not come before the moment of the move. -/
theorem Trace.loaded_iff {i : Nat} {visit : Visit} (trace : Trace plan start turned s m)
    (h : s.visits[i]? = some visit) : visit.before.lifecycle = .loaded ↔ plan.moment ≤ i := by
  have hasked : i < s.asked.length := (List.getElem?_eq_some_iff.mp (trace.placed h).path).1
  have hlength : s.asked.length ≤ plan.units.length := by
    have hle := trace.in_order.length_le
    rw [List.length_map] at hle
    exact hle
  rw [(trace.placed h).before, LoadPlan.stage_take_eq_loaded (by omega), Nat.lt_succ_iff]

end CodeLoader

end ObjectModel
