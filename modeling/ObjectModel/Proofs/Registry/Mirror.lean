/-
What every reachable registry promises about singleton types.

The mirror holds of the registry that has no singleton types, and every
operation keeps it, so it holds of all reachable ones. Read without the
machinery (`SoundSingletons`) it says which object a singleton type belongs to,
that it is a class without a name, and what it inherits from; singleton types
stand for objects of their own, so all of it is said of singletons of
singletons too. `Granted` is the account of a request: it answers what is there,
or makes one type for the object and one for each type above it that lacked
one, and touches nothing else.

Above a class there may be a module: an object that was made from a module has a
singleton type below that module. A request for the singleton type of such a
class makes one for the module too (`two_singletons_below_module`).
-/
import ObjectModel.Proofs.Registry.SingletonRequest

namespace ObjectModel.Registry

variable {r r' : Registry}

-- ================================================================ the invariant

/-- Without singleton types there is nothing to mirror. -/
theorem Mirrored.of_none (attached : ∀ s : TypeId, (r.record s).attached = none)
    (singleton : ∀ o : ObjectId, (r.cell o).singleton = none) : r.Mirrored where
  singleton_iff {o s} := by
    rw [attached, singleton]
    exact ⟨nofun, nofun⟩
  nameless {o s} h := by
    rw [attached] at h
    cases h
  superclass_some {o s} h := by
    rw [attached] at h
    cases h

theorem attached_closed (s : TypeId) : (closed.record s).attached = none := by
  rcases s with ⟨_ | _ | _ | _ | n⟩ <;> rfl

theorem singleton_closed (o : ObjectId) : (closed.cell o).singleton = none := by
  rcases o with ⟨_ | _ | _ | _ | n⟩ <;> rfl

theorem mirrored_initial : initial.Mirrored := by
  have hadopt : ∀ {r : Registry} (t parent : TypeId) (name : String),
      SameSingletons closed r → SameSingletons closed (r.adopt t parent name) := by
    intro r t parent name same
    refine same.trans (.adopt ?_ parent name)
    rw [same.attached_eq]
    exact attached_closed t
  have hsame : SameSingletons closed initial := by
    unfold initial
    exact hadopt _ _ _ (hadopt _ _ _ (hadopt _ _ _ (hadopt _ _ _ (.refl _))))
  refine .of_none (fun s => ?_) fun o => ?_
  · rw [hsame.attached_eq]
    exact attached_closed s
  · rw [hsame.singleton_eq]
    exact singleton_closed o

-- ==================================================================== requests

/-- The types above the one that an object stands for, in the order of the chain.
An object that stands for no type has none. -/
inductive TypesAbove (r : Registry) (o : ObjectId) : List TypeId → Prop
  | object : r.denotes? o = none → TypesAbove r o []
  | type {t : TypeId} {above : List TypeId} : r.denotes? o = some t →
      r.Ascends t (t :: above) → TypesAbove r o above

/-- A request answers the singleton type that is there. -/
theorem singletonOf_of_some {o : ObjectId} {s : TypeId} (h : (r.cell o).singleton = some s) :
    r.singletonOf o = (s, r) := by
  unfold singletonOf singletonWithin
  rw [h]

section singletonOf

variable (wf : r.WellFormed)

include wf

theorem exists_typesAbove (o : ObjectId) : ∃ above, r.TypesAbove o above := by
  cases hd : r.denotes? o with
  | none => exact ⟨[], .object hd⟩
  | some t =>
      obtain ⟨chain, ascends⟩ := wf.exists_ascends (wf.denotes_object hd).1
      obtain ⟨above, rfl⟩ := List.head?_eq_some_iff.mp ascends.head
      exact ⟨above, .type hd ascends⟩

variable (mirrored : r.Mirrored)

include mirrored

/-- A first request makes a type for each type above that lacks one, and then
the object's own. -/
theorem attaches_singletonOf {o : ObjectId} {above : List TypeId} (holds : r.Holds o)
    (free : (r.cell o).singleton = none) (types : r.TypesAbove o above) :
    Attaches r ((r.lacking (above.map r.objectOf)).reverse ++ [o]) (r.singletonOf o).2
      ∧ ((r.singletonOf o).2.cell o).singleton = some (r.singletonOf o).1 := by
  cases types with
  | object hd =>
      have hnone : Attaches r [] r := .nil
      unfold singletonOf singletonWithin
      rw [free, hd]
      exact ⟨hnone.snoc holds free (singletonSuper?_of_object hd),
        singleton_attachSingleton_self r holds⟩
  | @type t _ hd ascends =>
      obtain ⟨has, rfl⟩ := wf.denotes_object hd
      have hrank := chainRank_lt_size wf.four_le_size has
      have hmade := attaches_singletonWithin (r.size + 1) wf mirrored ascends (by omega)
      rw [List.map_cons, lacking_cons_of_none _ free, List.reverse_cons] at hmade
      exact hmade

/-- A request is a row of new singleton types, or there is nothing to do. -/
theorem exists_attaches_singletonOf {o : ObjectId} (holds : r.Holds o) :
    ∃ os, Attaches r os (r.singletonOf o).2 := by
  cases hs : (r.cell o).singleton with
  | some s =>
      rw [singletonOf_of_some hs]
      exact ⟨[], .nil⟩
  | none =>
      obtain ⟨above, types⟩ := exists_typesAbove wf o
      exact ⟨_, (attaches_singletonOf wf mirrored holds hs types).1⟩

end singletonOf

-- ================================================================ every registry

/-- An operation keeps the mirror. -/
theorem Mirrored.apply (wf : r.WellFormed) (mirrored : r.Mirrored) (op : Operation)
    (valid : op.Valid r) : (op.apply r).Mirrored := by
  by_cases hop : ∃ o, op = .makeSingleton o
  · obtain ⟨o, rfl⟩ := hop
    obtain ⟨os, row⟩ := exists_attaches_singletonOf wf mirrored valid
    exact (row.keeps wf mirrored).2.1
  · rw [not_exists] at hop
    exact mirrored.of_sameSingletons wf (.apply wf op) (.apply hop)

/-- Singleton types mirror the class graph in every reachable registry. -/
theorem Reachable.mirrored (reachable : r.Reachable) : r.Mirrored := by
  unfold Reachable at reachable
  induction reachable with
  | refl => exact mirrored_initial
  | step op before valid ih =>
      have hwf := Reachable.wellFormed before
      exact ih.apply hwf op valid

-- ==================================================================== the account

/-- Singleton types as their readers expect them. -/
structure SoundSingletons (r : Registry) : Prop where
  /-- No object has two singleton types, and none serves two objects. -/
  singleton_iff : ∀ {o : ObjectId} {s : TypeId},
    (r.cell o).singleton = some s ↔ (r.record s).attached = some o
  class_kind : ∀ {o : ObjectId} {s : TypeId}, (r.record s).attached = some o →
    r.Has s ∧ r.Holds o ∧ (r.record s).kind = .classType
  /-- No later operation names a singleton type, or detaches it. -/
  nameless : ∀ {r' : Registry} {o : ObjectId} {s : TypeId}, (r.record s).attached = some o →
    Evolves r r' → (r'.record s).name = none ∧ (r'.record s).attached = some o
  of_root : ∀ {o : ObjectId} {s t : TypeId}, (r.record s).attached = some o →
    r.denotes? o = some t → (r.record t).kind = .classType → (r.record t).superclass = none →
    (r.record s).superclass = some Core.classType
  of_class : ∀ {o : ObjectId} {s t u : TypeId}, (r.record s).attached = some o →
    r.denotes? o = some t → (r.record t).kind = .classType →
    (r.record t).superclass = some u →
    ∃ p, (r.cell (r.objectOf u)).singleton = some p ∧ (r.record s).superclass = some p
  of_module : ∀ {o : ObjectId} {s t : TypeId}, (r.record s).attached = some o →
    r.denotes? o = some t → (r.record t).kind = .moduleType →
    (r.record s).superclass = some Core.moduleType
  of_object : ∀ {o : ObjectId} {s : TypeId}, (r.record s).attached = some o →
    r.denotes? o = none → (r.record s).superclass = some (r.cell o).logicalType

/-- What a request for the singleton type of an object answers and leaves. -/
structure Granted (r : Registry) (o : ObjectId) (answer : TypeId × Registry) : Prop where
  singleton : (answer.2.cell o).singleton = some answer.1
  logicalType : ∀ {p : ObjectId}, r.Holds p →
    (answer.2.cell p).logicalType = (r.cell p).logicalType
  again : answer.2.singletonOf o = answer
  held : ∀ {s : TypeId}, (r.cell o).singleton = some s → answer = (s, r)
  /-- A first request makes one type for the object, and one for each type above
  it that lacked one. -/
  first : (r.cell o).singleton = none → ∃ above, r.TypesAbove o above
    ∧ answer.2.size = r.size + 1 + (r.lacking (above.map r.objectOf)).length
    ∧ Attached r ((r.lacking (above.map r.objectOf)).reverse ++ [o]) answer.2

theorem Mirrored.granted (wf : r.WellFormed) (mirrored : r.Mirrored) {o : ObjectId}
    (holds : r.Holds o) : r.Granted o (r.singletonOf o) := by
  have hsingleton : ((r.singletonOf o).2.cell o).singleton = some (r.singletonOf o).1 := by
    cases hs : (r.cell o).singleton with
    | some s =>
        rw [singletonOf_of_some hs]
        exact hs
    | none =>
        obtain ⟨above, types⟩ := exists_typesAbove wf o
        exact (attaches_singletonOf wf mirrored holds hs types).2
  have hgrows : Grows r (r.singletonOf o).2 := .singletonWithin _ wf o
  refine
    { singleton := hsingleton
      logicalType := fun h => (hgrows.header h).logicalType_eq
      again := singletonOf_of_some hsingleton
      held := fun h => singletonOf_of_some h
      first := fun free => ?_ }
  obtain ⟨above, types⟩ := exists_typesAbove wf o
  have hattached := (attaches_singletonOf wf mirrored holds free types).1.attached
  refine ⟨above, types, ?_, hattached⟩
  rw [hattached.size_eq, List.length_append, List.length_reverse, List.length_singleton]
  omega

/-- What the superclass of a singleton type is, said for what its object stands
for. -/
theorem Reachable.soundSingletons (reachable : r.Reachable) : r.SoundSingletons := by
  have wf := reachable.wellFormed
  have mirrored := reachable.mirrored
  have hsuper : ∀ {o : ObjectId} {s u : TypeId}, (r.record s).attached = some o →
      r.singletonSuper? o = some u → (r.record s).superclass = some u := by
    intro o s u h asked
    obtain ⟨u', hasked, hs⟩ := mirrored.superclass_some h
    rw [asked] at hasked
    cases hasked
    exact hs
  exact
    { singleton_iff := mirrored.singleton_iff
      class_kind := fun h =>
        ⟨has_of_attached h, mirrored.holds h,
          (wf.singleton_class (mirrored.singleton_iff.mpr h)).2⟩
      nameless := by
        intro r' o s h evolves
        have hmirrored := Reachable.mirrored (reachable.trans evolves)
        have hlink := (evolves.grows wf).singleton_some (mirrored.singleton_iff.mpr h)
        have hattached := hmirrored.singleton_iff.mp hlink
        exact ⟨hmirrored.nameless hattached, hattached⟩
      of_root := fun h hd class_ root => hsuper h (singletonSuper?_of_root hd class_ root)
      of_class := by
        intro o s t u h hd class_ super
        obtain ⟨p, hasked, hs⟩ := mirrored.superclass_some h
        rw [singletonSuper?_of_class hd class_ super] at hasked
        exact ⟨p, hasked, hs⟩
      of_module := fun h hd module_ => hsuper h (singletonSuper?_of_module hd module_)
      of_object := fun h hd => hsuper h (singletonSuper?_of_object hd) }

/-- In every reachable registry singleton types mirror the class graph, and a
request for one makes what lacks and nothing else. -/
theorem singletons_mirror_classes (reachable : r.Reachable) :
    r.SoundSingletons ∧ ∀ {o : ObjectId}, r.Holds o → r.Granted o (r.singletonOf o) :=
  ⟨reachable.soundSingletons, fun holds => reachable.mirrored.granted reachable.wellFormed holds⟩

/-- A class, one below it, and the singleton type of the singleton type of the
first: a request for the second makes one type. -/
theorem singletons_mirror_classes_below_nested_singleton :
    let r := (Operation.makeSingleton ⟨8⟩).apply ((Operation.makeSingleton ⟨4⟩).apply
      ((Operation.defineClass Core.object (some ⟨4⟩) "Derived" none).apply
        ((Operation.defineClass Core.object (some Core.object) "Base" none).apply initial)))
    r.Reachable ∧ r.SoundSingletons ∧ r.Granted ⟨5⟩ (r.singletonOf ⟨5⟩)
      ∧ (r.singletonOf ⟨5⟩).2.size = r.size + 1 := by
  intro r
  have reachable : r.Reachable :=
    .step _ (.step _ (.step _ (.single _ (by decide +kernel)) (by decide +kernel))
      (by decide +kernel)) (by decide +kernel)
  obtain ⟨sound, granted⟩ := singletons_mirror_classes reachable
  exact ⟨reachable, sound, granted (by decide +kernel), by decide +kernel⟩

/-- A module, an object that was made from it, and the object's singleton type: a
class with a module above it and no class. -/
def belowGreeting : List Operation :=
  [.defineModule Core.object "Greeting", .makeObject ⟨4⟩ none, .makeSingleton ⟨5⟩]

/-- A first request for the singleton type of such a class makes one for the module
too, although no class above lacks one. -/
theorem two_singletons_below_module :
    let r := initial.run belowGreeting
    r.Reachable ∧ r.Holds ⟨6⟩ ∧ r.denotes? ⟨6⟩ = some ⟨5⟩ ∧ (r.cell ⟨6⟩).singleton = none
      ∧ (r.record ⟨5⟩).superclass = some ⟨4⟩ ∧ (r.record ⟨4⟩).kind = .moduleType
      ∧ (r.record ⟨4⟩).superclass = none ∧ (r.singletonOf ⟨6⟩).2.size = r.size + 2 :=
  ⟨evolves_run (by decide +kernel), by decide +kernel, by decide +kernel, by decide +kernel,
    by decide +kernel, by decide +kernel, by decide +kernel, by decide +kernel⟩

end ObjectModel.Registry
