/-
Singleton methods stay with their object.

A singleton method of a plain object goes into the table of the object's
singleton type, which is made for it if there is none. Making it changes no
lookup (`lookup?_singletonOf_of_plain`). After that a lookup can change for the
new name only, and only where the singleton type is among the ancestors. It is
in front of the object's own. No other singleton type is below it, so it is
among those of another object only if that object's class was defined below it:
nothing keeps a class from having a singleton type as its superclass. Objects of
such a class inherit the method; no other object finds anything it did not find
before (`SingletonMethod`).
-/
import ObjectModel.Proofs.Machine.SingletonLookup
import ObjectModel.Proofs.Registry.MethodDefinition

namespace ObjectModel

open Registry

/-- What lookups find after a method was defined for the object `o` alone. -/
structure Machine.SingletonMethod (m m' : Machine) (o : ObjectId) (method : Method) : Prop where
  owner : (m'.registry.cell o).singleton = some method.owner
  /-- A singleton type that was there is the one. -/
  owner_kept : ∀ s, (m.registry.cell o).singleton = some s → method.owner = s
  own : m'.lookup? (.object o) method.name = some method
  /-- No other name is touched, for no value. -/
  other_names : ∀ (v : Value) (k : String), m.registry.HoldsValue v → k ≠ method.name →
    m'.lookup? v k = m.lookup? v k
  /-- No name is touched for another object, unless its class is below the
  singleton type that `o` had. -/
  other_objects : ∀ (p : ObjectId) (k : String), m.registry.Holds p → p ≠ o →
    (∀ s, (m.registry.cell o).singleton = some s →
      s ∉ m.registry.ancestors (m.registry.cell p).logicalType) →
    m'.lookup? (.object p) k = m.lookup? (.object p) k
  /-- An object with the singleton type among its ancestors finds the method
  there, unless a type before it has one of that name. -/
  inherited : ∀ (p : ObjectId) (s : TypeId), m.registry.Holds p →
    (m.registry.cell o).singleton = some s →
    s ∈ m.registry.ancestors (m.registry.cell p).metaType →
    m'.lookup? (.object p) method.name
      = ((m.registry.before (m.registry.cell p).metaType s).findSome?
          fun a => (m.registry.record a).methods.get? method.name).or (some method)

namespace Machine

/-- A class below the singleton type gives its objects something to find. -/
theorem SingletonMethod.isSome_inherited {m m' : Machine} {o p : ObjectId} {s : TypeId}
    {method : Method} (defined : SingletonMethod m m' o method) (holds : m.registry.Holds p)
    (linked : (m.registry.cell o).singleton = some s)
    (mem : s ∈ m.registry.ancestors (m.registry.cell p).metaType) :
    (m'.lookup? (.object p) method.name).isSome = true := by
  rw [defined.inherited p s holds linked mem, Option.isSome_or]
  exact Bool.or_true _

/-- What a name finds after a method was defined for a type. -/
theorem lookup?_defineMethod {m : Machine} (equipped : m.registry.Equipped) (owner : TypeId)
    (name : String) (arity : Arity) (body : Body) (v : Value) (k : String) :
    ({ m with registry := m.registry.defineMethod owner name arity body } : Machine).lookup? v k
      = if k = name ∧ owner ∈ m.registry.ancestors (m.metaType v) then
          ((m.registry.before (m.metaType v) owner).findSome?
            fun a => (m.registry.record a).methods.get? name).or (some ⟨name, owner, arity, body⟩)
        else m.lookup? v k := by
  have hmeta : ({ m with registry := m.registry.defineMethod owner name arity body } :
      Machine).metaType v = m.metaType v := by
    cases v with
    | object o => rfl
    | _ => rfl
  unfold lookup?
  rw [hmeta]
  exact equipped.wellFormed.findMethod?_defineMethod (has_metaType equipped v) name arity body k

variable {m : Machine} (launched : m.registry.Launched) {o : ObjectId}
  (holds : m.registry.Holds o) (plain : m.registry.denotes? o = none)

include launched plain

/-- A request for the singleton type of a plain object moves no class. -/
theorem not_rebases_of_plain (t u : TypeId) : ¬ m.registry.Rebases o t u := by
  rintro ⟨-, -, rfl | ⟨above, types, mem⟩, chain, ascends, -⟩
  · have has := ascends.has t (List.mem_of_mem_head? ascends.head)
    rw [launched.equipped.wellFormed.object_denotes has] at plain
    cases plain
  · cases types with
    | object => cases mem
    | type hd =>
        rw [plain] at hd
        cases hd

include holds

/-- Nor does it change what a name finds. -/
theorem lookup?_singletonOf_of_plain {v : Value} (holdsv : m.registry.HoldsValue v)
    (name : String) :
    ({ m with registry := (m.registry.singletonOf o).2 } : Machine).lookup? v name
      = m.lookup? v name :=
  lookup?_singletonOf_kept launched holds holdsv
    (fun t u _ => not_rebases_of_plain launched plain t u) name

/-- The singleton type that a plain object has after a request is above no
object that was there, unless it was there as well. -/
theorem not_mem_ancestors_singletonOf {p : ObjectId} (holdsp : m.registry.Holds p) (ne : p ≠ o)
    (private_ : ∀ s, (m.registry.cell o).singleton = some s →
      s ∉ m.registry.ancestors (m.registry.cell p).logicalType) :
    (m.registry.singletonOf o).1
      ∉ (m.registry.singletonOf o).2.ancestors ((m.registry.singletonOf o).2.cell p).metaType := by
  have wf := launched.equipped.wellFormed
  have mirrored := launched.reachable.mirrored
  have hgranted := mirrored.granted wf holds
  have hsingleton := hgranted.singleton
  obtain ⟨os, row⟩ := exists_attaches_singletonOf wf mirrored holds
  obtain ⟨hwf, hmirrored, hgrows⟩ := row.keeps wf mirrored
  have hplain : (m.registry.singletonOf o).2.denotes? o = none :=
    (hgrows.denotes?_eq holds).trans plain
  have hclass := wf.logical_has holdsp
  intro mem
  -- only a class below the singleton type could have it among its ancestors
  have hlogical := hmirrored.mem_ancestors_logicalType hwf
    (hmirrored.singleton_iff.mp hsingleton) hplain (hgrows.holds holdsp) ne mem
  rw [(hgrows.header holdsp).logicalType_eq,
    wf.ancestors_eq_of_keeps (.of_epoch hgrows row.attached.epoch_eq) hclass] at hlogical
  cases hs : (m.registry.cell o).singleton with
  | some s =>
      rw [singletonOf_of_some hs] at hlogical
      exact private_ s hs hlogical
  | none =>
      -- a type that was there before is attached to the object only if it was before
      have hattached := hmirrored.singleton_iff.mp hsingleton
      rw [row.attached.record_old (wf.ancestors_all_have hclass _ hlogical)] at hattached
      rw [mirrored.singleton_iff.mpr hattached] at hs
      cases hs

/-- A singleton method of a plain object is defined, and stays with it. -/
theorem exists_singletonMethod (name : String) (arity : Arity) (body : Body) :
    ∃ s m', m.defineSingletonMethod (.object o) name arity body = .ok m'
      ∧ SingletonMethod m m' o ⟨name, s, arity, body⟩ := by
  have hsame := fun {v} => lookup?_singletonOf_of_plain launched holds plain (v := v)
  have hprivate := fun {p} => not_mem_ancestors_singletonOf launched holds plain (p := p)
  have hsingleton := (launched.reachable.mirrored.granted launched.equipped.wellFormed
    holds).singleton
  have hasked : ∀ s, (m.registry.cell o).singleton = some s → m.registry.singletonOf o = (s, _) :=
    fun s hs => singletonOf_of_some hs
  have hlaunched := launched.of_evolves (.single (.makeSingleton o) holds)
  change (m.registry.singletonOf o).2.Launched at hlaunched
  suffices hmade : SingletonMethod m
      { m with
        registry := (m.registry.singletonOf o).2.defineMethod (m.registry.singletonOf o).1 name
          arity body }
      o ⟨name, (m.registry.singletonOf o).1, arity, body⟩ from ⟨_, _, rfl, hmade⟩
  generalize m.registry.singletonOf o = made at *
  obtain ⟨s, r₁⟩ := made
  have hafter := lookup?_defineMethod (m := { m with registry := r₁ }) hlaunched.equipped s name
    arity body
  exact
    { owner := hsingleton
      owner_kept := fun t linked => by
        cases hasked t linked
        rfl
      own := by
        have has := (hlaunched.equipped.wellFormed.singleton_class hsingleton).1
        have hown := findMethod?_own (methods_defineMethod_self r₁ s name arity body has)
        exact (found?_of_some (r := r₁.defineMethod s name arity body) hsingleton name).trans hown
      other_names := fun v k holdsv ne => by
        rw [hafter, if_neg fun h => ne h.1]
        exact hsame holdsv k
      other_objects := fun p k holdsp ne private_ => by
        rw [hafter, if_neg fun h => hprivate holdsp ne private_ h.2]
        exact hsame (v := .object p) (fun q hq => by cases hq; exact holdsp) k
      inherited := fun p t holdsp linked mem => by
        cases hasked t linked
        rw [hafter]
        exact if_pos ⟨rfl, mem⟩ }

end Machine

/-- In every world that a started machine comes to, a method can be defined for
any plain object alone; the object finds it, and no other object does whose
class is not below the singleton type. -/
theorem singletonMethod_of_run {natives : Natives} {options : Options}
    {config : NativeConfiguration} {files : FileTree} {m : Machine} {w : World}
    (started : Machine.start options config files = .ok m) (run : World.Run natives (.fresh m) w)
    {o : ObjectId} (holds : w.machine.registry.Holds o)
    (plain : w.machine.registry.denotes? o = none) (name : String) (arity : Arity) (body : Body) :
    ∃ s m', w.machine.defineSingletonMethod (.object o) name arity body = .ok m'
      ∧ w.machine.SingletonMethod m' o ⟨name, s, arity, body⟩ :=
  Machine.exists_singletonMethod (World.launched_of_run started run) holds plain name arity body

-- ================================================ a class below a singleton type

/-- An object, a class below its singleton type, and an object of that class. -/
def classBelowSingleton (r : Registry) : List Operation :=
  [.makeObject Core.object none,
    .makeSingleton ⟨r.heap.length⟩,
    .defineClass Core.object (some ⟨r.size⟩) "Below" none,
    .makeObject ⟨r.size + 1⟩ none]

/-- The object `p` was made from a class, no singleton type itself, that is
below the singleton type `s` of the plain object `o`. -/
structure BelowSingleton (r : Registry) (o p : ObjectId) (s : TypeId) : Prop where
  holds : r.Holds o ∧ r.Holds p
  ne : p ≠ o
  plain : r.denotes? o = none
  linked : (r.cell o).singleton = some s
  class_free : (r.record (r.cell p).logicalType).attached = none
  below : s ∈ r.ancestors (r.cell p).metaType
  lacks : (r.found? p "hop").isNone = true

instance (r : Registry) (o p : ObjectId) (s : TypeId) : Decidable (BelowSingleton r o p s) :=
  decidable_of_iff
    ((r.Holds o ∧ r.Holds p) ∧ p ≠ o ∧ r.denotes? o = none ∧ (r.cell o).singleton = some s
      ∧ (r.record (r.cell p).logicalType).attached = none
      ∧ s ∈ r.ancestors (r.cell p).metaType ∧ (r.found? p "hop").isNone = true)
    ⟨fun ⟨h₁, h₂, h₃, h₄, h₅, h₆, h₇⟩ => ⟨h₁, h₂, h₃, h₄, h₅, h₆, h₇⟩,
      fun ⟨h₁, h₂, h₃, h₄, h₅, h₆, h₇⟩ => ⟨h₁, h₂, h₃, h₄, h₅, h₆, h₇⟩⟩

theorem exists_belowSingleton : ∃ m o p s,
    Machine.start .standard .empty ⟨.emptyDirectory, []⟩ = .ok m
      ∧ World.Run .none (.fresh m) ((World.fresh m).operated (classBelowSingleton m.registry))
      ∧ BelowSingleton
          ((World.fresh m).operated (classBelowSingleton m.registry)).machine.registry o p s := by
  have hmade : (match Machine.start .standard .empty ⟨.emptyDirectory, []⟩ with
      | .ok m => decide (Registry.Along Operation.Valid m.registry (classBelowSingleton m.registry)
          ∧ BelowSingleton
              ((World.fresh m).operated (classBelowSingleton m.registry)).machine.registry
              ⟨m.registry.heap.length⟩ ⟨m.registry.heap.length + 3⟩ ⟨m.registry.size⟩)
      | .error _ => false) = true := by
    decide +kernel
  cases hm : Machine.start .standard .empty ⟨.emptyDirectory, []⟩ with
  | error e =>
      rw [hm] at hmade
      cases hmade
  | ok m =>
      rw [hm, decide_eq_true_eq] at hmade
      exact ⟨m, _, _, _, rfl, .operated (.refl _) hmade.1, hmade.2⟩

/-- The object that a method is defined for finds it, and an object of a class
below its singleton type finds one as well. -/
theorem singletonMethod_of_belowSingleton : ∃ m w o p s m',
    Machine.start .standard .empty ⟨.emptyDirectory, []⟩ = .ok m
      ∧ World.Run .none (.fresh m) w ∧ BelowSingleton w.machine.registry o p s
      ∧ w.machine.defineSingletonMethod (.object o) "hop" (.exactly 0) .receiver = .ok m'
      ∧ m'.lookup? (.object o) "hop" = some ⟨"hop", s, .exactly 0, .receiver⟩
      ∧ (m'.lookup? (.object p) "hop").isSome = true := by
  obtain ⟨m, o, p, s, started, run, below⟩ := exists_belowSingleton
  obtain ⟨t, m', hdefined, hmethod⟩ :=
    singletonMethod_of_run started run below.holds.1 below.plain "hop" (.exactly 0) .receiver
  obtain rfl : t = s := hmethod.owner_kept s below.linked
  exact ⟨m, _, o, p, t, m', started, run, below, hdefined, hmethod.own,
    hmethod.isSome_inherited below.holds.2 below.linked below.below⟩

/-- So a method that is defined for one object alone can be found by another,
which was made from a class that is no singleton type. -/
theorem singletonMethod_not_private : ∃ m w o p m',
    Machine.start .standard .empty ⟨.emptyDirectory, []⟩ = .ok m
      ∧ World.Run .none (.fresh m) w
      ∧ w.machine.registry.Holds o ∧ w.machine.registry.denotes? o = none
      ∧ w.machine.registry.Holds p ∧ p ≠ o
      ∧ (w.machine.registry.record (w.machine.registry.cell p).logicalType).attached = none
      ∧ w.machine.defineSingletonMethod (.object o) "hop" (.exactly 0) .receiver = .ok m'
      ∧ m'.lookup? (.object p) "hop" ≠ w.machine.lookup? (.object p) "hop" := by
  obtain ⟨m, o, p, s, started, run, below⟩ := exists_belowSingleton
  obtain ⟨t, m', hdefined, hmethod⟩ := Machine.exists_singletonMethod
    (World.launched_of_run started run) below.holds.1 below.plain "hop" (.exactly 0) .receiver
  refine ⟨m, _, o, p, m', started, run, below.holds.1, below.plain, below.holds.2, below.ne,
    below.class_free, hdefined, fun hsame => ?_⟩
  have hfound := hmethod.isSome_inherited below.holds.2 below.linked below.below
  have hlacks := Eq.trans hsame (Option.isNone_iff_eq_none.mp below.lacks)
  rw [hlacks] at hfound
  cases hfound

end ObjectModel
