/-
The shape of the type graph, kept by every operation.

`WellFormed` is the invariant of reachable registries. Its one quantity is
`chainRank`, which drops along every superclass link: a type made later has a
larger place than its superclass, and the first four types, whose places are
not in that order, are ranked by hand. So chains are finite without a word
about paths, and they can only end at the one class without a superclass, or
at a module: an object may be made from a module, and its singleton type is
then a class with that module above it.

The invariant has three parts, about superclasses, about includes and about
objects, and each reads only some of what a registry stores. An edit that
leaves that alone keeps the part; one that leaves all links alone keeps them
all (`SameGraph`). The edits that do make links, and the definitions composed
from those, are in `TypeGraph`.
-/
import ObjectModel.Proofs.Registry.Nesting

namespace ObjectModel

/-- The class of the objects that stand for types of a kind. -/
def TypeKind.metatype : TypeKind → TypeId
  | .classType => Core.classType
  | .moduleType => Core.moduleType

namespace Registry

/-- How far a class is from `BasicObject` at most. -/
def chainRank (t : TypeId) : Nat :=
  match t.index with
  | 0 => 3
  | 1 => 0
  | 2 => 1
  | 3 => 2
  | n + 4 => n + 4

/-- Superclass chains are finite, and one class is at the root. -/
structure SoundSuperclasses (r : Registry) : Prop where
  four_le_size : 4 ≤ r.size
  core_kind : ∀ {t : TypeId}, t.index < 4 → (r.record t).kind = .classType
  root_superclass : (r.record Core.basicObject).superclass = none
  meta_superclass : (r.record Core.classType).superclass = some Core.moduleType
  /-- A superclass is an earlier type, and only classes have one. -/
  superclass_some : ∀ {t u : TypeId}, (r.record t).superclass = some u →
    (r.record t).kind = .classType ∧ r.Has u ∧ chainRank u < chainRank t
  /-- Only one class has no superclass. -/
  superclass_none : ∀ {t : TypeId}, r.Has t → (r.record t).kind = .classType →
    (r.record t).superclass = none → t = Core.basicObject

/-- Modules nest. -/
structure SoundIncludes (r : Registry) : Prop where
  includes_module : ∀ {t m : TypeId}, r.Includes t m →
    r.Has m ∧ (r.record m).kind = .moduleType
  includes_nodup : ∀ t : TypeId, (r.record t).includes.Nodup
  includes_acyclic : ∀ t : TypeId, ¬ r.Inside t t

/-- Objects stand for types, and are made from types. -/
structure SoundObjects (r : Registry) : Prop where
  object_holds : ∀ {t : TypeId}, r.Has t → r.Holds (r.record t).object
  object_denotes : ∀ {t : TypeId}, r.Has t → r.denotes? (r.record t).object = some t
  /-- Only its own object denotes a type. -/
  denotes_object : ∀ {o : ObjectId} {t : TypeId}, r.denotes? o = some t →
    r.Has t ∧ (r.record t).object = o
  object_logical : ∀ {t : TypeId}, r.Has t →
    (r.cell (r.record t).object).logicalType = (r.record t).kind.metatype
  logical_has : ∀ {o : ObjectId}, r.Holds o → r.Has (r.cell o).logicalType
  /-- Singleton types are classes. -/
  singleton_class : ∀ {o : ObjectId} {s : TypeId}, (r.cell o).singleton = some s →
    r.Has s ∧ (r.record s).kind = .classType

/-- What holds of the type graph of every reachable registry. -/
structure WellFormed (r : Registry) : Prop
    extends SoundSuperclasses r, SoundIncludes r, SoundObjects r

-- ================================================================ the ranks

theorem chainRank_of_four_le {t : TypeId} (h : 4 ≤ t.index) : chainRank t = t.index := by
  obtain ⟨i⟩ := t
  obtain ⟨n, rfl⟩ := Nat.exists_eq_add_of_le' h
  rfl

theorem chainRank_le_three {t : TypeId} (h : t.index < 4) : chainRank t ≤ 3 := by
  obtain ⟨i⟩ := t
  match i, h with
  | 0, _ | 1, _ | 2, _ | 3, _ => decide

/-- Ranks stay below the number of types. -/
theorem chainRank_lt_size {r : Registry} (four : 4 ≤ r.size) {t : TypeId} (has : r.Has t) :
    chainRank t < r.size := by
  unfold Has at has
  rcases Nat.lt_or_ge t.index 4 with h | h
  · have := chainRank_le_three h
    omega
  · rw [chainRank_of_four_le h]
    exact has

namespace WellFormed

variable {r r' : Registry} (wf : r.WellFormed)

include wf

theorem nested : r.Nested where
  has step := (wf.includes_module step).1
  acyclic := wf.includes_acyclic

theorem has_core {t : TypeId} (h : t.index < 4) : r.Has t :=
  Nat.lt_of_lt_of_le h wf.four_le_size

/-- The class that stands behind a kind of types. -/
theorem metatype_class (kind : TypeKind) :
    r.Has kind.metatype ∧ (r.record kind.metatype).kind = .classType := by
  have hlt : kind.metatype.index < 4 := by cases kind <;> decide
  exact ⟨wf.has_core hlt, wf.core_kind hlt⟩

theorem size_pos : 0 < r.size := Nat.lt_of_lt_of_le (by decide) wf.four_le_size

/-- The type where lookup for an object starts is there, also for a place of
the heap that is not in use. -/
theorem has_metaType (o : ObjectId) : r.Has (r.cell o).metaType := by
  unfold HeapObject.metaType
  cases hs : (r.cell o).singleton with
  | some s => exact (wf.singleton_class hs).1
  | none =>
      by_cases holds : r.Holds o
      · exact wf.logical_has holds
      · rw [cell_of_not_holds r holds]
        exact wf.has_core (by decide)

end WellFormed

-- ================================================ edits that keep the graph

/-- Two records stand at the same place in the graph. -/
structure SamePlace (a b : TypeRecord) : Prop where
  kind_eq : a.kind = b.kind
  superclass_eq : a.superclass = b.superclass
  includes_eq : a.includes = b.includes
  object_eq : a.object = b.object

/-- Two registries have the same graph, whatever their objects. -/
structure SameGraph (r r' : Registry) : Prop where
  size_eq : r'.size = r.size
  place : ∀ t : TypeId, SamePlace (r'.record t) (r.record t)

theorem SameGraph.of_types {r r' : Registry} (types : r'.types = r.types) : SameGraph r r' where
  size_eq := by unfold size; rw [types]
  place t := by
    unfold record
    rw [types]
    exact ⟨rfl, rfl, rfl, rfl⟩

theorem SameGraph.trans {a b c : Registry} (hab : SameGraph a b) (hbc : SameGraph b c) :
    SameGraph a c where
  size_eq := hbc.size_eq.trans hab.size_eq
  place t :=
    { kind_eq := (hbc.place t).kind_eq.trans (hab.place t).kind_eq
      superclass_eq := (hbc.place t).superclass_eq.trans (hab.place t).superclass_eq
      includes_eq := (hbc.place t).includes_eq.trans (hab.place t).includes_eq
      object_eq := (hbc.place t).object_eq.trans (hab.place t).object_eq }

theorem sameGraph_modifyType (r : Registry) (t : TypeId) {change : TypeRecord → TypeRecord}
    (kept : ∀ x, SamePlace (change x) x) : SameGraph r (r.modifyType t change) where
  size_eq := size_modifyType r t change
  place u :=
    { kind_eq := record_modifyType_kept r TypeRecord.kind (fun x => (kept x).kind_eq) u
      superclass_eq :=
        record_modifyType_kept r TypeRecord.superclass (fun x => (kept x).superclass_eq) u
      includes_eq := record_modifyType_kept r TypeRecord.includes (fun x => (kept x).includes_eq) u
      object_eq := record_modifyType_kept r TypeRecord.object (fun x => (kept x).object_eq) u }

theorem sameGraph_bind (r : Registry) (owner : TypeId) (name : String) (value : Value) :
    SameGraph r (r.bind owner name value) :=
  sameGraph_modifyType r owner fun _ => ⟨rfl, rfl, rfl, rfl⟩

theorem sameGraph_adopt (r : Registry) (t parent : TypeId) (name : String) :
    SameGraph r (r.adopt t parent name) := by
  unfold adopt
  refine (sameGraph_modifyType r t fun x => ?_).trans (sameGraph_bind _ _ _ _)
  split
  · exact ⟨rfl, rfl, rfl, rfl⟩
  · exact ⟨rfl, rfl, rfl, rfl⟩

theorem sameGraph_setConstant (r : Registry) (owner : TypeId) (name : String) (value : Value) :
    SameGraph r (r.setConstant owner name value) := by
  unfold setConstant
  split
  · split
    · exact sameGraph_adopt r _ _ _
    · exact sameGraph_bind r _ _ _
  · exact sameGraph_bind r _ _ _

theorem sameGraph_defineMethod (r : Registry) (owner : TypeId) (name : String) (arity : Arity)
    (body : Body) : SameGraph r (r.defineMethod owner name arity body) := by
  have h : SameGraph r (r.modifyType owner fun t =>
      { t with methods := t.methods.set name ⟨name, owner, arity, body⟩ }) :=
    sameGraph_modifyType r owner fun _ => ⟨rfl, rfl, rfl, rfl⟩
  exact ⟨h.size_eq, h.place⟩

@[simp] theorem heap_adopt (r : Registry) (t parent : TypeId) (name : String) :
    (r.adopt t parent name).heap = r.heap := rfl

@[simp] theorem heap_setConstant (r : Registry) (owner : TypeId) (name : String)
    (value : Value) : (r.setConstant owner name value).heap = r.heap := by
  unfold setConstant
  split
  · split
    · rfl
    · rfl
  · rfl

@[simp] theorem heap_defineMethod (r : Registry) (owner : TypeId) (name : String)
    (arity : Arity) (body : Body) : (r.defineMethod owner name arity body).heap = r.heap := rfl

namespace SameGraph

variable {r r' : Registry} (same : SameGraph r r')

include same

theorem has_iff {t : TypeId} : r'.Has t ↔ r.Has t := by
  unfold Has
  rw [same.size_eq]

theorem includes_eq : r'.Includes = r.Includes := by
  funext t m
  unfold Includes
  rw [(same.place t).includes_eq]

end SameGraph

section parts

variable {r r' : Registry} (size : r'.size = r.size)
  (kind : ∀ t : TypeId, (r'.record t).kind = (r.record t).kind)

include size kind

/-- The part about superclasses reads kinds and superclasses. -/
theorem SoundSuperclasses.of_eq (ok : r.SoundSuperclasses)
    (superclass : ∀ t : TypeId, (r'.record t).superclass = (r.record t).superclass) :
    r'.SoundSuperclasses where
  four_le_size := by rw [size]; exact ok.four_le_size
  core_kind h := by rw [kind]; exact ok.core_kind h
  root_superclass := by rw [superclass]; exact ok.root_superclass
  meta_superclass := by rw [superclass]; exact ok.meta_superclass
  superclass_some {t u} h := by
    rw [superclass] at h
    rw [kind, Has, size]
    exact ok.superclass_some h
  superclass_none {t} has class_ h := by
    rw [Has, size] at has
    rw [kind] at class_
    rw [superclass] at h
    exact ok.superclass_none has class_ h

/-- The part about objects reads kinds, and what the objects point at: they
denote the types that they did, old objects keep their type, and every object
points at types that are there. -/
theorem SoundObjects.of_eq (ok : r.SoundObjects)
    (object : ∀ t : TypeId, (r'.record t).object = (r.record t).object)
    (holds : ∀ {o : ObjectId}, r.Holds o → r'.Holds o)
    (denotes : ∀ o : ObjectId, r'.denotes? o = r.denotes? o)
    (logical : ∀ {o : ObjectId}, r.Holds o → (r'.cell o).logicalType = (r.cell o).logicalType)
    (logicalHas : ∀ {o : ObjectId}, r'.Holds o → r.Has (r'.cell o).logicalType)
    (singletonClass : ∀ {o : ObjectId} {s : TypeId}, (r'.cell o).singleton = some s →
      r.Has s ∧ (r.record s).kind = .classType) : r'.SoundObjects where
  object_holds {t} has := by
    rw [Has, size] at has
    rw [object]
    exact holds (ok.object_holds has)
  object_denotes {t} has := by
    rw [Has, size] at has
    rw [object, denotes]
    exact ok.object_denotes has
  denotes_object {o t} h := by
    rw [denotes] at h
    rw [Has, size, object]
    exact ok.denotes_object h
  object_logical {t} has := by
    rw [Has, size] at has
    rw [object, logical (ok.object_holds has), kind]
    exact ok.object_logical has
  logical_has {o} h := by
    rw [Has, size]
    exact logicalHas h
  singleton_class {o s} h := by
    rw [Has, size, kind]
    exact singletonClass h

/-- With the same heap, objects point where they did. -/
theorem SoundObjects.of_heap (ok : r.SoundObjects)
    (object : ∀ t : TypeId, (r'.record t).object = (r.record t).object)
    (heap : r'.heap = r.heap) : r'.SoundObjects := by
  have hcell : r'.cell = r.cell := by
    funext o
    unfold cell
    rw [heap]
  have hholds : r'.Holds = r.Holds := by
    funext o
    unfold Holds
    rw [heap]
  refine ok.of_eq size kind object ?_ ?_ ?_ ?_ ?_
  · rw [hholds]
    exact id
  · intro o
    unfold denotes?
    rw [hcell]
  · rw [hcell]
    exact fun _ => rfl
  · rw [hcell, hholds]
    exact ok.logical_has
  · rw [hcell]
    exact ok.singleton_class

end parts

namespace SameGraph

variable {r r' : Registry} (same : SameGraph r r')

include same

theorem soundSuperclasses (ok : r.SoundSuperclasses) : r'.SoundSuperclasses :=
  ok.of_eq same.size_eq (fun t => (same.place t).kind_eq) fun t => (same.place t).superclass_eq

theorem soundIncludes (ok : r.SoundIncludes) : r'.SoundIncludes where
  includes_module {t m} h := by
    rw [same.includes_eq] at h
    rw [same.has_iff, (same.place m).kind_eq]
    exact ok.includes_module h
  includes_nodup t := by
    rw [(same.place t).includes_eq]
    exact ok.includes_nodup t
  includes_acyclic t := by
    unfold Inside
    rw [same.includes_eq]
    exact ok.includes_acyclic t

end SameGraph

/-- With the same graph, only what the objects point at is left to prove. -/
theorem WellFormed.of_sameGraph {r r' : Registry} (wf : r.WellFormed) (same : SameGraph r r')
    (holds : ∀ {o : ObjectId}, r.Holds o → r'.Holds o)
    (denotes : ∀ o : ObjectId, r'.denotes? o = r.denotes? o)
    (logical : ∀ {o : ObjectId}, r.Holds o → (r'.cell o).logicalType = (r.cell o).logicalType)
    (logicalHas : ∀ {o : ObjectId}, r'.Holds o → r.Has (r'.cell o).logicalType)
    (singletonClass : ∀ {o : ObjectId} {s : TypeId}, (r'.cell o).singleton = some s →
      r.Has s ∧ (r.record s).kind = .classType) : r'.WellFormed where
  toSoundSuperclasses := same.soundSuperclasses wf.toSoundSuperclasses
  toSoundIncludes := same.soundIncludes wf.toSoundIncludes
  toSoundObjects := wf.toSoundObjects.of_eq same.size_eq (fun t => (same.place t).kind_eq)
    (fun t => (same.place t).object_eq) holds denotes logical logicalHas singletonClass

/-- With the same graph and the same objects the invariant is the same. -/
theorem WellFormed.of_sameHeap {r r' : Registry} (wf : r.WellFormed) (same : SameGraph r r')
    (heap : r'.heap = r.heap) : r'.WellFormed where
  toSoundSuperclasses := same.soundSuperclasses wf.toSoundSuperclasses
  toSoundIncludes := same.soundIncludes wf.toSoundIncludes
  toSoundObjects := wf.toSoundObjects.of_heap same.size_eq (fun t => (same.place t).kind_eq)
    (fun t => (same.place t).object_eq) heap

end Registry

end ObjectModel
