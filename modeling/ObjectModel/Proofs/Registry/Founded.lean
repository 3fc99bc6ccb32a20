/-
Every link of a registry leads downwards.

`WellFormed` says what the type graph looks like as long as no object claims to
stand for a type that another object stands for. Nothing makes a caller refrain
from it, and `Arises` allows it. What is left then is `Founded`: links lead to
what is there, an include closes no circle, a superclass has a lower rank, and a
singleton type is younger than the type that its object stands for or was made
from. It is enough for every recursion to end.

An edit adds types and objects and keeps the links of those that were there
(`Adds`). So it keeps the invariant if what it adds is founded, and the edits are
gone through once for that (`Founded.of_adds`).
-/
import ObjectModel.Proofs.Registry.Mirror

namespace ObjectModel.Registry

variable {r r' : Registry}

-- =============================================================== the invariant

/-- The type that the singleton type of an object is named after. -/
def namesake (r : Registry) (o : ObjectId) : TypeId :=
  (r.denotes? o).getD (r.cell o).logicalType

/-- The links of a type lead downwards. -/
structure FoundedType (r : Registry) (t : TypeId) : Prop where
  superclass_some : ∀ {u : TypeId}, (r.record t).superclass = some u →
    r.Has u ∧ chainRank u < chainRank t
  object_denotes : r.Holds (r.record t).object ∧ r.denotes? (r.record t).object = some t
  attached_some : ∀ {o : ObjectId}, (r.record t).attached = some o →
    r.Holds o ∧ (r.namesake o).index < t.index

/-- An object is made from a type, and stands for one at most. -/
structure FoundedObject (r : Registry) (o : ObjectId) : Prop where
  logical_has : r.Has (r.cell o).logicalType
  denotes_has : ∀ {t : TypeId}, r.denotes? o = some t → r.Has t

/-- What holds of every registry, whatever objects are made. -/
structure Founded (r : Registry) : Prop extends SoundIncludes r where
  four_le_size : 4 ≤ r.size
  types : ∀ {t : TypeId}, r.Has t → r.FoundedType t
  objects : ∀ {o : ObjectId}, r.Holds o → r.FoundedObject o
  singleton_has : ∀ {o : ObjectId} {s : TypeId}, (r.cell o).singleton = some s → r.Has s

namespace Founded

variable (founded : r.Founded)

include founded

theorem nested : r.Nested where
  has step := (founded.includes_module step).1
  acyclic := founded.includes_acyclic

theorem size_pos : 0 < r.size := Nat.lt_of_lt_of_le (by decide) founded.four_le_size

/-- The class that stands behind a kind of types is there. -/
theorem has_metatype (kind : TypeKind) : r.Has kind.metatype := by
  have hlt : kind.metatype.index < 4 := by cases kind <;> decide
  exact Nat.lt_of_lt_of_le hlt founded.four_le_size

theorem superclass_some {t u : TypeId} (super : (r.record t).superclass = some u) :
    r.Has u ∧ chainRank u < chainRank t :=
  (founded.types (has_of_superclass super)).superclass_some super

theorem denotes_has {o : ObjectId} {t : TypeId} (h : r.denotes? o = some t) : r.Has t := by
  by_cases holds : r.Holds o
  · exact (founded.objects holds).denotes_has h
  · unfold denotes? at h
    rw [cell_of_not_holds r holds] at h
    cases h

/-- A new place has a higher rank than every type. -/
theorem chainRank_lt_new {t : TypeId} (has : r.Has t) : chainRank t < chainRank ⟨r.size⟩ := by
  rw [chainRank_of_four_le (t := ⟨r.size⟩) founded.four_le_size]
  exact chainRank_lt_size founded.four_le_size has

end Founded

/-- What an object is named after is there. -/
theorem FoundedObject.has_namesake {o : ObjectId} (founded : r.FoundedObject o) :
    r.Has (r.namesake o) := by
  unfold namesake
  cases h : r.denotes? o with
  | none => exact founded.logical_has
  | some t => exact founded.denotes_has h

-- ==================================================================== additions

/-- Types and objects were added, and those that were there have kept their
links. -/
structure Adds (r r' : Registry) : Prop where
  size_le : r.size ≤ r'.size
  heap_le : r.heap.length ≤ r'.heap.length
  superclass_eq : ∀ {t : TypeId}, r.Has t → (r'.record t).superclass = (r.record t).superclass
  object_eq : ∀ {t : TypeId}, r.Has t → (r'.record t).object = (r.record t).object
  attached_eq : ∀ {t : TypeId}, r.Has t → (r'.record t).attached = (r.record t).attached
  logicalType_eq : ∀ {o : ObjectId}, r.Holds o →
    (r'.cell o).logicalType = (r.cell o).logicalType
  denotes_eq : ∀ {o : ObjectId}, r.Holds o → r'.denotes? o = r.denotes? o

namespace Adds

theorem refl (r : Registry) : Adds r r :=
  ⟨Nat.le_refl _, Nat.le_refl _, fun _ => rfl, fun _ => rfl, fun _ => rfl, fun _ => rfl,
    fun _ => rfl⟩

/-- What is stored beside types and objects does not matter. -/
theorem of_eq (types : r'.types = r.types) (heap : r'.heap = r.heap) : Adds r r' := by
  obtain ⟨types', heap', shapes', epoch'⟩ := r'
  obtain rfl := types
  obtain rfl := heap
  exact { refl r with }

theorem has (adds : Adds r r') {t : TypeId} (h : r.Has t) : r'.Has t :=
  Nat.lt_of_lt_of_le h adds.size_le

theorem holds (adds : Adds r r') {o : ObjectId} (h : r.Holds o) : r'.Holds o :=
  Nat.lt_of_lt_of_le h adds.heap_le

theorem trans {a b c : Registry} (hab : Adds a b) (hbc : Adds b c) : Adds a c where
  size_le := Nat.le_trans hab.size_le hbc.size_le
  heap_le := Nat.le_trans hab.heap_le hbc.heap_le
  superclass_eq h := (hbc.superclass_eq (hab.has h)).trans (hab.superclass_eq h)
  object_eq h := (hbc.object_eq (hab.has h)).trans (hab.object_eq h)
  attached_eq h := (hbc.attached_eq (hab.has h)).trans (hab.attached_eq h)
  logicalType_eq h := (hbc.logicalType_eq (hab.holds h)).trans (hab.logicalType_eq h)
  denotes_eq h := (hbc.denotes_eq (hab.holds h)).trans (hab.denotes_eq h)

theorem namesake_eq (adds : Adds r r') {o : ObjectId} (holds : r.Holds o) :
    r'.namesake o = r.namesake o := by
  unfold namesake
  rw [adds.denotes_eq holds, adds.logicalType_eq holds]

/-- A type that was there stays founded. -/
theorem foundedType (adds : Adds r r') {t : TypeId} (has : r.Has t) (founded : r.FoundedType t) :
    r'.FoundedType t where
  superclass_some super := by
    rw [adds.superclass_eq has] at super
    obtain ⟨hu, hlt⟩ := founded.superclass_some super
    exact ⟨adds.has hu, hlt⟩
  object_denotes := by
    obtain ⟨holds, denotes⟩ := founded.object_denotes
    rw [adds.object_eq has, adds.denotes_eq holds]
    exact ⟨adds.holds holds, denotes⟩
  attached_some h := by
    rw [adds.attached_eq has] at h
    obtain ⟨holds, hlt⟩ := founded.attached_some h
    rw [adds.namesake_eq holds]
    exact ⟨adds.holds holds, hlt⟩

/-- An object that was there stays founded. -/
theorem foundedObject (adds : Adds r r') {o : ObjectId} (holds : r.Holds o)
    (founded : r.FoundedObject o) : r'.FoundedObject o where
  logical_has := by
    rw [adds.logicalType_eq holds]
    exact adds.has founded.logical_has
  denotes_has h := by
    rw [adds.denotes_eq holds] at h
    exact adds.has (founded.denotes_has h)

/-- A change of a type that keeps its links. -/
theorem modifyType (r : Registry) (t : TypeId) {change : TypeRecord → TypeRecord}
    (superclass : ∀ x, (change x).superclass = x.superclass)
    (object : ∀ x, (change x).object = x.object)
    (attached : ∀ x, (change x).attached = x.attached) : Adds r (r.modifyType t change) where
  size_le := Nat.le_of_eq (size_modifyType r t change).symm
  heap_le := Nat.le_refl _
  superclass_eq _ := record_modifyType_kept r TypeRecord.superclass superclass _
  object_eq _ := record_modifyType_kept r TypeRecord.object object _
  attached_eq _ := record_modifyType_kept r TypeRecord.attached attached _
  logicalType_eq _ := rfl
  denotes_eq _ := rfl

theorem defineMethod (r : Registry) (owner : TypeId) (name : String) (arity : Arity)
    (body : Body) : Adds r (r.defineMethod owner name arity body) := by
  unfold Registry.defineMethod
  refine (modifyType r owner ?_ ?_ ?_).trans (.of_eq rfl rfl) <;> exact fun _ => rfl

theorem bind (r : Registry) (owner : TypeId) (name : String) (value : Value) :
    Adds r (r.bind owner name value) :=
  modifyType r owner (fun _ => rfl) (fun _ => rfl) fun _ => rfl

theorem adopt (r : Registry) (t parent : TypeId) (name : String) :
    Adds r (r.adopt t parent name) := by
  unfold Registry.adopt
  refine (modifyType r t (fun x => ?_) (fun x => ?_) fun x => ?_).trans (bind _ parent name _)
  · split <;> rfl
  · split <;> rfl
  · split <;> rfl

theorem setConstant (r : Registry) (owner : TypeId) (name : String) (value : Value) :
    Adds r (r.setConstant owner name value) := by
  unfold Registry.setConstant
  split
  · split
    · exact adopt r _ owner name
    · exact bind r owner name value
  · exact bind r owner name value

theorem allocType (r : Registry) (kind : TypeKind) (logicalType : TypeId)
    (superclass : Option TypeId) (shape : Shape) :
    Adds r (r.allocType kind logicalType superclass shape).2 where
  size_le := by
    rw [size_allocType]
    exact Nat.le_succ _
  heap_le := by
    rw [length_heap_allocType]
    exact Nat.le_succ _
  superclass_eq has := by rw [record_allocType_of_ne r (ne_of_has r has)]
  object_eq has := by rw [record_allocType_of_ne r (ne_of_has r has)]
  attached_eq _ := attached_allocType r kind logicalType superclass shape _
  logicalType_eq holds := by rw [cell_allocType_of_ne r (ne_of_holds r holds)]
  denotes_eq holds := by
    unfold denotes?
    rw [cell_allocType_of_ne r (ne_of_holds r holds)]

theorem allocObject (r : Registry) (t : TypeId) (payload : Payload) :
    Adds r (r.allocObject t payload).2 where
  size_le := Nat.le_refl _
  heap_le := by
    rw [length_heap_allocObject]
    exact Nat.le_succ _
  superclass_eq _ := rfl
  object_eq _ := rfl
  attached_eq _ := rfl
  logicalType_eq holds := by rw [cell_allocObject_of_ne r (ne_of_holds r holds)]
  denotes_eq holds := by
    unfold denotes?
    rw [cell_allocObject_of_ne r (ne_of_holds r holds)]

theorem attachSingleton (r : Registry) (o : ObjectId) (superclass : TypeId) :
    Adds r (r.attachSingleton o superclass).2 where
  size_le := by
    rw [size_attachSingleton]
    exact Nat.le_succ _
  heap_le := by
    rw [length_heap_attachSingleton]
    exact Nat.le_succ _
  superclass_eq has := by rw [record_attachSingleton_of_ne r (ne_of_has r has)]
  object_eq has := by rw [record_attachSingleton_of_ne r (ne_of_has r has)]
  attached_eq has := by rw [record_attachSingleton_of_ne r (ne_of_has r has)]
  logicalType_eq holds := by rw [cell_attachSingleton_of_holds r holds]
  denotes_eq holds := by
    unfold denotes?
    rw [cell_attachSingleton_of_holds r holds]

end Adds

/-- A singleton type stands in the graph as the type that it was before it was
attached. -/
theorem sameGraph_attachSingleton (r : Registry) (o : ObjectId) (superclass : TypeId) :
    SameGraph (r.allocType .classType Core.classType (some superclass)
      (r.record superclass).shape).2 (r.attachSingleton o superclass).2 := by
  rw [attachSingleton_eq]
  generalize (r.allocType .classType Core.classType (some superclass)
      (r.record superclass).shape).2 = made
  have hattached : SameGraph made (made.modifyType ⟨r.size⟩ fun type =>
      { type with attached := some o }) := sameGraph_modifyType _ _ fun _ => ⟨rfl, rfl, rfl, rfl⟩
  exact hattached.trans (.of_types rfl)

namespace Founded

/-- What was there stays founded, so only what was added is left to look at. -/
theorem of_adds (founded : r.Founded) (adds : Adds r r') (includes : r'.SoundIncludes)
    (types : ∀ {t : TypeId}, r'.Has t → ¬ r.Has t → r'.FoundedType t)
    (objects : ∀ {o : ObjectId}, r'.Holds o → ¬ r.Holds o → r'.FoundedObject o)
    (singletons : ∀ {o : ObjectId} {s : TypeId}, (r'.cell o).singleton = some s →
      (r.cell o).singleton = some s ∨ r'.Has s) : r'.Founded where
  toSoundIncludes := includes
  four_le_size := Nat.le_trans founded.four_le_size adds.size_le
  types {t} has := by
    by_cases old : r.Has t
    · exact adds.foundedType old (founded.types old)
    · exact types has old
  objects {o} holds := by
    by_cases old : r.Holds o
    · exact adds.foundedObject old (founded.objects old)
    · exact objects holds old
  singleton_has h := (singletons h).elim (fun old => adds.has (founded.singleton_has old)) id

/-- An edit that adds nothing. -/
theorem of_size_eq (founded : r.Founded) (adds : Adds r r') (size : r'.size = r.size)
    (heap : r'.heap = r.heap) (includes : r'.SoundIncludes) : r'.Founded := by
  refine founded.of_adds adds includes (fun has old => ?_) (fun holds old => ?_) fun h => ?_
  · unfold Has at has old
    omega
  · unfold Holds at holds old
    rw [heap] at holds
    exact absurd holds old
  · unfold cell at h ⊢
    rw [heap] at h
    exact .inl h

/-- With the same graph, and nothing added. -/
theorem of_sameGraph (founded : r.Founded) (adds : Adds r r') (same : SameGraph r r')
    (heap : r'.heap = r.heap) : r'.Founded :=
  founded.of_size_eq adds same.size_eq heap (same.soundIncludes founded.toSoundIncludes)

-- ======================================================================= edits

variable (founded : r.Founded)

include founded

theorem adopt (t parent : TypeId) (name : String) : (r.adopt t parent name).Founded :=
  founded.of_sameGraph (.adopt r t parent name) (sameGraph_adopt r t parent name)
    (heap_adopt r t parent name)

/-- A new type below a type that is there, and a new object that stands for it. -/
theorem of_new_type (adds : Adds r r') (includes : r'.SoundIncludes) (size : r'.size = r.size + 1)
    (heap : r'.heap.length = r.heap.length + 1)
    (below : ∀ {u : TypeId}, (r'.record ⟨r.size⟩).superclass = some u → r.Has u)
    (object : (r'.record ⟨r.size⟩).object = ⟨r.heap.length⟩)
    (attached : ∀ {o : ObjectId}, (r'.record ⟨r.size⟩).attached = some o → r.Holds o)
    (logical : r.Has (r'.cell ⟨r.heap.length⟩).logicalType)
    (stands : (r'.cell ⟨r.heap.length⟩).payload = .type ⟨r.size⟩)
    (singletons : ∀ {o : ObjectId} {s : TypeId}, (r'.cell o).singleton = some s →
      (r.cell o).singleton = some s ∨ s = ⟨r.size⟩) : r'.Founded := by
  have hhas : r'.Has ⟨r.size⟩ := by
    show r.size < r'.size
    omega
  have hholds : r'.Holds ⟨r.heap.length⟩ := by
    show r.heap.length < r'.heap.length
    omega
  have hdenotes : r'.denotes? ⟨r.heap.length⟩ = some ⟨r.size⟩ := by
    unfold denotes?
    rw [stands]
  refine founded.of_adds adds includes (fun {t} has old => ?_) (fun {o} holds old => ?_) fun h => ?_
  · unfold Has at has old
    obtain rfl : t = ⟨r.size⟩ := congrArg TypeId.mk (by omega)
    refine ⟨fun super => ?_, ?_, fun h => ?_⟩
    · have hu := below super
      exact ⟨adds.has hu, founded.chainRank_lt_new hu⟩
    · rw [object]
      exact ⟨hholds, hdenotes⟩
    · have holds := attached h
      rw [adds.namesake_eq holds]
      exact ⟨adds.holds holds, (founded.objects holds).has_namesake⟩
  · unfold Holds at holds old
    obtain rfl : o = ⟨r.heap.length⟩ := congrArg ObjectId.mk (by omega)
    refine ⟨adds.has logical, fun h => ?_⟩
    rw [hdenotes] at h
    cases h
    exact hhas
  · rcases singletons h with old | rfl
    · exact .inl old
    · exact .inr hhas

theorem allocType (kind : TypeKind) (superclass : Option TypeId) (shape : Shape)
    (below : ∀ {u : TypeId}, superclass = some u → r.Has u) :
    (r.allocType kind kind.metatype superclass shape).2.Founded := by
  have new := allocates_allocType r kind superclass shape
  have hrecord := record_allocType_new r kind kind.metatype superclass shape
  refine founded.of_new_type (.allocType r kind kind.metatype superclass shape)
    (new.soundIncludes founded.toSoundIncludes) (size_allocType r _ _ _ _)
    (length_heap_allocType r _ _ _ _) (fun super => ?_) new.object_new (fun h => ?_) ?_ ?_
    fun h => ?_
  · rw [new.superclass_new] at super
    exact below super
  · rw [hrecord] at h
    cases h
  · rw [new.cell_new]
    exact founded.has_metatype kind
  · rw [new.cell_new]
  · rw [singleton_allocType] at h
    exact .inl h

/-- A new object of a type that is there, whatever it stands for. -/
theorem allocObject {t : TypeId} {payload : Payload} (has : r.Has t)
    (stands : ∀ {u : TypeId}, payload = .type u → r.Has u) :
    (r.allocObject t payload).2.Founded := by
  have adds := Adds.allocObject r t payload
  have same : SameGraph r (r.allocObject t payload).2 := .of_types rfl
  have hnew := cell_allocObject_new r t payload
  refine founded.of_adds adds (same.soundIncludes founded.toSoundIncludes)
    (fun has old => absurd has old) (fun holds old => ?_) fun {o s} h => .inl ?_
  · obtain rfl := ((holds_allocObject r).mp holds).resolve_left old
    refine ⟨?_, fun h => ?_⟩
    · rw [hnew]
      exact has
    · unfold denotes? at h
      rw [hnew] at h
      refine stands ?_
      dsimp only at h
      split at h
      · cases h
        rfl
      · cases h
  · by_cases ho : o = ⟨r.heap.length⟩
    · rw [ho, hnew] at h
      cases h
    · rwa [cell_allocObject_of_ne r ho] at h

/-- A new singleton type for an object that is there, below a type that is there. -/
theorem attachSingleton {o : ObjectId} {superclass : TypeId} (holds : r.Holds o)
    (has : r.Has superclass) : (r.attachSingleton o superclass).2.Founded := by
  have made := allocates_allocType r .classType (some superclass) (r.record superclass).shape
  have hrecord := record_attachSingleton_new r o superclass
  have hcell := cell_attachSingleton_new r superclass holds
  refine founded.of_new_type (.attachSingleton r o superclass)
    ((sameGraph_attachSingleton r o superclass).soundIncludes
      (made.soundIncludes founded.toSoundIncludes))
    (size_attachSingleton r o superclass) (length_heap_attachSingleton r o superclass)
    (fun super => ?_) ?_ (fun h => ?_) ?_ ?_ fun {p s} h => ?_
  · rw [hrecord] at super
    cases super
    exact has
  · rw [hrecord]
  · rw [hrecord] at h
    cases h
    exact holds
  · rw [hcell]
    exact founded.has_metatype .classType
  · rw [hcell]
  · by_cases hp : p = o
    · rw [hp, singleton_attachSingleton_self r holds] at h
      exact .inr (Option.some.inj h).symm
    · rw [singleton_attachSingleton_of_ne r superclass hp] at h
      exact .inl h

-- ================================================================= definitions

theorem defineAnonymousClass {superclass : TypeId} {shape : Option Shape} {t : TypeId}
    (has : r.Has superclass) (h : r.defineAnonymousClass superclass shape = (.ok t, r')) :
    r'.Founded := by
  obtain ⟨-, hmade⟩ := defineAnonymousClass_inv h
  have hfounded := founded.allocType .classType (some superclass)
    (shape.getD (r.record superclass).shape) (by intro u hu; cases hu; exact has)
  cases hmade
  exact hfounded

theorem defineClassUnder {parent : TypeId} {superclass : Option TypeId} {name : String}
    {shape : Option Shape} {t : TypeId} (has : ∀ s, superclass = some s → r.Has s)
    (h : r.defineClassUnder parent superclass name shape = (.ok t, r')) : r'.Founded := by
  rcases defineClassUnder_inv h with ⟨rfl, -⟩ | ⟨s, made, hs, -, hmade, rfl⟩
  · exact founded
  · exact (founded.defineAnonymousClass (has s hs) hmade).adopt _ _ _

theorem defineModuleUnder {parent : TypeId} {name : String} {t : TypeId}
    (h : r.defineModuleUnder parent name = (.ok t, r')) : r'.Founded := by
  rcases defineModuleUnder_inv h with ⟨rfl, -⟩ | ⟨made, -, hmade, rfl⟩
  · exact founded
  · have hfounded := founded.allocType .moduleType none moduleShape (by intro u hu; cases hu)
    cases hmade
    exact hfounded.adopt _ _ _

theorem includeModule {target m : TypeId} (h : r.includeModule target m = (.ok (), r')) :
    r'.Founded := by
  obtain ⟨module_, hne, hopen, rfl⟩ := includeModule_inv h
  have hfar : ¬ Relation.ReflTransGen r.Includes m target := by
    rw [← guard_iff founded.nested founded.size_pos, hopen]
    simpa using hne
  have hlink := founded.toSoundIncludes.link (has_of_module module_) module_ hfar
  have adds : Adds r (r.modifyType target fun t =>
      { t with includes := m :: t.includes.filter (· ≠ m) }) :=
    .modifyType r target (fun _ => rfl) (fun _ => rfl) fun _ => rfl
  exact founded.of_size_eq (adds.trans (.of_eq rfl rfl)) (size_modifyType r target _) rfl
    { hlink with }

end Founded

-- ================================================================== singletons

/-- What a request for a singleton type comes back with: a type that is there, in a
founded registry that something was added to. -/
structure Yields (r : Registry) (answer : TypeId × Registry) : Prop where
  founded : answer.2.Founded
  has : answer.2.Has answer.1
  adds : Adds r answer.2

theorem Founded.yields_attachSingleton (founded : r.Founded) {o : ObjectId}
    {superclass : TypeId} (holds : r.Holds o) (has : r.Has superclass) :
    r.Yields (r.attachSingleton o superclass) where
  founded := founded.attachSingleton holds has
  has := by
    show r.size < (r.attachSingleton o superclass).2.size
    simp
  adds := .attachSingleton r o superclass

/-- The recursion through the superclasses keeps the invariant, whatever the fuel. -/
theorem Founded.yields_singletonWithin : ∀ (fuel : Nat) {r : Registry}, r.Founded →
    ∀ {o : ObjectId}, r.Holds o → r.Yields (singletonWithin fuel r o) := by
  intro fuel
  induction fuel with
  | zero =>
      intro r founded o holds
      exact ⟨founded, (founded.objects holds).logical_has, .refl r⟩
  | succ fuel ih =>
      intro r founded o holds
      unfold singletonWithin
      split
      · next s hs => exact ⟨founded, founded.singleton_has hs, .refl r⟩
      · have hmodule : r.Has Core.moduleType := founded.has_metatype .moduleType
        have hclass : r.Has Core.classType := founded.has_metatype .classType
        dsimp only
        split
        · exact founded.yields_attachSingleton holds (founded.objects holds).logical_has
        · split
          · exact founded.yields_attachSingleton holds hmodule
          · exact founded.yields_attachSingleton holds hclass
          · next parent _ hparent =>
            have hobject := (founded.types (founded.superclass_some hparent).1).object_denotes.1
            have above := ih founded hobject
            have below := above.founded.yields_attachSingleton (above.adds.holds holds) above.has
            exact ⟨below.founded, below.has, above.adds.trans below.adds⟩

-- ================================================================ every registry

/-- Every operation keeps the invariant. -/
theorem Founded.apply (founded : r.Founded) {op : Operation} (valid : op.Valid r) :
    (op.apply r).Founded := by
  cases op with
  | defineClass parent superclass name shape =>
      exact (looks_defineClassUnder ..).keeps founded fun h => founded.defineClassUnder valid.2 h
  | defineAnonymousClass superclass shape =>
      exact (looks_defineAnonymousClass ..).keeps founded fun h => founded.defineAnonymousClass valid h
  | defineModule parent name =>
      exact (looks_defineModuleUnder ..).keeps founded fun h => founded.defineModuleUnder h
  | mixIn target m =>
      exact (looks_includeModule ..).keeps founded fun h => founded.includeModule h
  | setConstant owner name value =>
      exact founded.of_sameGraph (.setConstant r owner name value)
        (sameGraph_setConstant r owner name value) (heap_setConstant r owner name value)
  | defineMethod owner name arity body =>
      exact founded.of_sameGraph (.defineMethod r owner name arity body)
        (sameGraph_defineMethod r owner name arity body) (heap_defineMethod r owner name arity body)
  | makeSingleton o => exact (founded.yields_singletonWithin (r.size + 1) valid).founded
  | defineShape name fields =>
      exact founded.of_sameGraph (.of_eq rfl rfl) (.of_types rfl) rfl
  | makeObject cls text =>
      refine founded.allocObject valid fun {u} h => ?_
      cases text with
      | none => cases h
      | some content => cases h

/-- A registry that operations lead to from the very first one, when objects may be
made besides that claim to stand for any type. -/
inductive Arises : Registry → Prop where
  | initial : Arises initial
  | apply {r : Registry} (op : Operation) : Arises r → op.Valid r → Arises (op.apply r)
  | allocObject {r : Registry} (t : TypeId) (payload : Payload) : Arises r → r.Has t →
      (∀ u, payload = .type u → r.Has u) → Arises (r.allocObject t payload).2

/-- What is reachable arises. -/
theorem Reachable.arises (reachable : r.Reachable) : r.Arises := by
  unfold Reachable at reachable
  induction reachable with
  | refl => exact .initial
  | step op before valid ih => exact ih.apply op valid

theorem founded_closed : closed.Founded where
  toSoundIncludes := soundIncludes_closed
  four_le_size := Nat.le_refl 4
  types {t} has := by
    refine ⟨fun super => ?_, ?_, fun h => ?_⟩
    · obtain ⟨-, hu, hlt⟩ := soundSuperclasses_closed.superclass_some super
      exact ⟨hu, hlt⟩
    · exact ⟨soundObjects_closed.object_holds has, soundObjects_closed.object_denotes has⟩
    · rw [attached_closed] at h
      cases h
  objects holds :=
    ⟨soundObjects_closed.logical_has holds,
      fun h => (soundObjects_closed.denotes_object h).1⟩
  singleton_has h := (soundObjects_closed.singleton_class h).1

theorem founded_initial : initial.Founded := by
  unfold initial
  exact (((founded_closed.adopt _ _ _).adopt _ _ _).adopt _ _ _).adopt _ _ _

/-- Links lead downwards in every registry that arises. -/
theorem Arises.founded (arises : r.Arises) : r.Founded := by
  induction arises with
  | initial => exact founded_initial
  | apply op _ valid ih => exact ih.apply valid
  | allocObject t payload _ has stands ih => exact ih.allocObject has fun {u} => stands u

end ObjectModel.Registry
