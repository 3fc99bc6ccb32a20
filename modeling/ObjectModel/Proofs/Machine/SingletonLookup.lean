/-
What a send finds before and after a singleton type was asked for.

A request for a singleton type of an object is not seen by any send, with one
exception. Singleton types are made on demand, and lookup for the object of a
class without one starts at `Class`, past all singleton methods of the classes
above. The request that gives the object its singleton type links it to theirs,
and from then on sends to the object find what the first of them found; a module
above the class counts as one of them.
-/
import ObjectModel.Proofs.Registry.Inheritance
import ObjectModel.Proofs.Site.Run

namespace ObjectModel

open Registry

/-- What the object of the class `t` finds of the singleton methods of classes. -/
structure Machine.Inherits (m : Machine) (t : TypeId) : Prop where
  /-- Without a singleton type it finds what `Class` has. -/
  free : (m.registry.cell (m.registry.objectOf t)).singleton = none → ∀ name : String,
    m.lookup? (m.registry.typeValue t) name = m.registry.findMethod? Core.classType name
  /-- With one, it looks through those of all types above. -/
  through : ∀ {s u : TypeId} {chain : List TypeId},
    (m.registry.cell (m.registry.objectOf t)).singleton = some s →
    m.registry.Ascends t chain → u ∈ chain →
    ∃ q, (m.registry.cell (m.registry.objectOf u)).singleton = some q ∧ q ∈ m.registry.ancestors s
  /-- As long as nothing is mixed into it, it finds its own singleton methods,
  and what the superclass's object finds. -/
  bare : ∀ {s u : TypeId}, (m.registry.cell (m.registry.objectOf t)).singleton = some s →
    (m.registry.record t).superclass = some u → (m.registry.record s).includes = [] →
    ∀ name : String, m.lookup? (m.registry.typeValue t) name
      = ((m.registry.record s).methods.get? name).or (m.lookup? (m.registry.typeValue u) name)

namespace Machine

variable {m : Machine} (launched : m.registry.Launched)

include launched

theorem inherits {t : TypeId} (has : m.registry.Has t)
    (class_ : (m.registry.record t).kind = .classType) : m.Inherits t := by
  have wf := launched.equipped.wellFormed
  have mirrored := launched.reachable.mirrored
  exact
    { free := fun free => wf.found?_of_class (wf.object_denotes has) class_ free
      through := fun linked ascends mem => mirrored.exists_singleton_ancestor wf ascends linked mem
      bare := fun linked super bare => mirrored.found?_of_bare wf linked super bare }

/-- A request moves the start of lookup for no value but the object of a class
that gets below a type with a singleton type, or below a module. -/
theorem lookup?_singletonOf_kept {o : ObjectId} (holds : m.registry.Holds o) {v : Value}
    (holdsv : m.registry.HoldsValue v)
    (kept : ∀ t u, m.registry.typeOf? v = some t → ¬ m.registry.Rebases o t u) (name : String) :
    ({ m with registry := (m.registry.singletonOf o).2 } : Machine).lookup? v name
      = m.lookup? v name := by
  have wf := launched.equipped.wellFormed
  have mirrored := launched.reachable.mirrored
  by_cases hobject : v.kind = .object
  · cases v with
    | object p => exact found?_singletonOf_kept wf mirrored holds (holdsv p rfl) kept name
    | bool b => cases b <;> cases hobject
    | _ => cases hobject
  · obtain ⟨os, row⟩ := exists_attaches_singletonOf wf mirrored holds
    unfold lookup?
    rw [metaType_of_kind_ne _ hobject, ← m.metaType_of_kind_ne hobject]
    exact row.findMethod?_eq wf mirrored name (has_metaType launched.equipped v)

end Machine

/-- In every world that a started machine comes to, a request for the singleton
type of an object changes what a send finds for those class objects only that
it moves below a type with a singleton type, or below a module: they find what
that type's object finds. -/
theorem lookup?_singletonClass_of_run {natives : Natives} {options : Options}
    {config : NativeConfiguration} {files : FileTree} {m : Machine} {w : World}
    (started : Machine.start options config files = .ok m) (run : World.Run natives (.fresh m) w)
    {o : ObjectId} (holds : w.machine.registry.Holds o) :
    (∃ s m', w.machine.singletonClass (.object o) = .ok (s, m')
      ∧ (∀ (v : Value) (name : String), w.machine.registry.HoldsValue v →
          (∀ t u, w.machine.registry.typeOf? v = some t → ¬ w.machine.registry.Rebases o t u) →
          m'.lookup? v name = w.machine.lookup? v name)
      ∧ ∀ (t u : TypeId) (name : String), w.machine.registry.Rebases o t u →
          m'.lookup? (w.machine.registry.typeValue t) name
            = w.machine.lookup? (w.machine.registry.typeValue u) name)
    ∧ ∀ t : TypeId, w.machine.registry.Has t →
        (w.machine.registry.record t).kind = .classType → w.machine.Inherits t := by
  have launched := World.launched_of_run started run
  refine ⟨⟨_, _, rfl, ?_, ?_⟩, fun t has class_ => Machine.inherits launched has class_⟩
  · intro v name holdsv kept
    exact Machine.lookup?_singletonOf_kept launched holds holdsv kept name
  · intro t u name rebases
    exact found?_singletonOf_rebased launched.equipped.wellFormed launched.reachable.mirrored holds
      rebases name

-- ====================================================== a class below another

/-- A world in which operations were made, one after the other. -/
def World.operated (w : World) (ops : List Operation) : World :=
  { w with machine := { w.machine with registry := w.machine.registry.run ops } }

theorem World.Run.operated {natives : Natives} : ∀ {ops : List Operation} {w w' : World},
    Run natives w w' → Registry.Along Operation.Valid w'.machine.registry ops →
      Run natives w (w'.operated ops) := by
  intro ops
  induction ops with
  | nil => intro w w' run _; exact run
  | cons op rest ih =>
      intro w w' run valid
      exact ih (.step run (.operate w' op valid.1)) valid.2

/-- A class, one below it, and a singleton method of the first. -/
def createAbove (r : Registry) : List Operation :=
  [.defineClass Core.object (some Core.object) "Base" none,
    .defineClass Core.object (some ⟨r.size⟩) "Derived" none,
    .makeSingleton ⟨r.heap.length⟩,
    .defineMethod ⟨r.size + 4⟩ "create" (.exactly 0) (.answer .nil)]

/-- The object of `base` finds a method, and that of `derived`, a class below
it without a singleton type, does not. -/
structure CreateAbove (r : Registry) (base derived : TypeId) : Prop where
  has : r.Has derived
  class_kind : (r.record derived).kind = .classType
  superclass : (r.record derived).superclass = some base
  free : (r.cell (r.objectOf derived)).singleton = none
  linked : (r.cell (r.objectOf base)).singleton.isSome = true
  base_finds : (r.found? (r.objectOf base) "create").isSome = true
  derived_lacks : (r.found? (r.objectOf derived) "create").isNone = true

instance (r : Registry) (base derived : TypeId) : Decidable (CreateAbove r base derived) :=
  decidable_of_iff
    (r.Has derived ∧ (r.record derived).kind = .classType
      ∧ (r.record derived).superclass = some base
      ∧ (r.cell (r.objectOf derived)).singleton = none
      ∧ (r.cell (r.objectOf base)).singleton.isSome = true
      ∧ (r.found? (r.objectOf base) "create").isSome = true
      ∧ (r.found? (r.objectOf derived) "create").isNone = true)
    ⟨fun ⟨h₁, h₂, h₃, h₄, h₅, h₆, h₇⟩ => ⟨h₁, h₂, h₃, h₄, h₅, h₆, h₇⟩,
      fun ⟨h₁, h₂, h₃, h₄, h₅, h₆, h₇⟩ => ⟨h₁, h₂, h₃, h₄, h₅, h₆, h₇⟩⟩

/-- A request for the lower class's singleton type moves it below the upper
class. -/
theorem CreateAbove.rebases {r : Registry} {base derived : TypeId} (wf : r.WellFormed)
    (above : CreateAbove r base derived) : r.Rebases (r.objectOf derived) derived base := by
  obtain ⟨chain, ascends⟩ := wf.exists_ascends above.has
  refine ⟨above.class_kind, above.free, .inl rfl, chain, ascends, ?_⟩
  rcases ascends.uncons with ⟨-, top⟩ | ⟨u, rest, rfl, super, ascendsAbove⟩
  · have hsuper := above.superclass
    rw [top] at hsuper
    cases hsuper
  · rw [above.superclass, Option.some_inj] at super
    subst super
    obtain ⟨rest, rfl⟩ := List.head?_eq_some_iff.mp ascendsAbove.head
    obtain ⟨s, linked⟩ := Option.isSome_iff_exists.mp above.linked
    unfold anchor?
    rw [List.find?_cons_of_neg (by rw [anchors_of_none above.free, above.class_kind]; decide)]
    exact List.find?_cons_of_pos (anchors_of_some linked)

theorem exists_createAbove : ∃ m base derived,
    Machine.start .standard .empty ⟨.emptyDirectory, []⟩ = .ok m
      ∧ World.Run .none (.fresh m) ((World.fresh m).operated (createAbove m.registry))
      ∧ CreateAbove ((World.fresh m).operated (createAbove m.registry)).machine.registry base
          derived := by
  have hmade : (match Machine.start .standard .empty ⟨.emptyDirectory, []⟩ with
      | .ok m => decide (Registry.Along Operation.Valid m.registry (createAbove m.registry)
          ∧ CreateAbove ((World.fresh m).operated (createAbove m.registry)).machine.registry
              ⟨m.registry.size⟩ ⟨m.registry.size + 1⟩)
      | .error _ => false) = true := by
    decide +kernel
  cases hm : Machine.start .standard .empty ⟨.emptyDirectory, []⟩ with
  | error e =>
      rw [hm] at hmade
      cases hmade
  | ok m =>
      rw [hm, decide_eq_true_eq] at hmade
      exact ⟨m, _, _, rfl, .operated (.refl _) hmade.1, hmade.2⟩

/-- A class that did not find a method of the class above finds it once its
singleton type was asked for. -/
theorem lookup?_singletonClass_below_create : ∃ m w base derived s m',
    Machine.start .standard .empty ⟨.emptyDirectory, []⟩ = .ok m
      ∧ World.Run .none (.fresh m) w ∧ CreateAbove w.machine.registry base derived
      ∧ w.machine.singletonClass (w.machine.registry.typeValue derived) = .ok (s, m')
      ∧ m'.lookup? (w.machine.registry.typeValue derived) "create"
          = w.machine.lookup? (w.machine.registry.typeValue base) "create" := by
  obtain ⟨m, base, derived, started, run, above⟩ := exists_createAbove
  have wf := (World.launched_of_run started run).equipped.wellFormed
  obtain ⟨⟨s, m', hasked, -, hmoved⟩, -⟩ :=
    lookup?_singletonClass_of_run started run (wf.object_holds above.has)
  exact ⟨m, _, base, derived, s, m', started, run, above, hasked,
    hmoved derived base "create" (above.rebases wf)⟩

/-- So a request for a singleton type is seen by a send. -/
theorem lookup?_singletonClass_ne : ∃ m w o s m',
    Machine.start .standard .empty ⟨.emptyDirectory, []⟩ = .ok m
      ∧ World.Run .none (.fresh m) w ∧ w.machine.registry.Holds o
      ∧ w.machine.singletonClass (.object o) = .ok (s, m')
      ∧ m'.lookup? (.object o) "create" ≠ w.machine.lookup? (.object o) "create" := by
  obtain ⟨m, base, derived, started, run, above⟩ := exists_createAbove
  have launched := World.launched_of_run started run
  have wf := launched.equipped.wellFormed
  have holds := wf.object_holds above.has
  have hafter := found?_singletonOf_rebased wf launched.reachable.mirrored holds
    (above.rebases wf) "create"
  refine ⟨m, _, _, _, _, started, run, holds, rfl, fun hsame => ?_⟩
  have hlost := Eq.trans hsame (Option.isNone_iff_eq_none.mp above.derived_lacks)
  have hfound := above.base_finds
  rw [← hafter, Option.isSome_iff_ne_none] at hfound
  exact hfound hlost

end ObjectModel
