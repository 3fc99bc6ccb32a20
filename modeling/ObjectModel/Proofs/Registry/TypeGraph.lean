/-
Every reachable registry has a well-formed type graph.

The edits that touch the graph come first, each with the condition under which
it keeps `WellFormed`: a new type below a type that is there (`Allocates`), a
new object of a type, a singleton link to a class, an include that closes no
circle. The definitions are put together from them, refused ones included, and
so is the recursion that makes singleton types, whose induction is on its fuel
and asks nothing of the fuel's size.
-/
import ObjectModel.Proofs.Registry.Definitions
import ObjectModel.Proofs.Registry.WellFormed

namespace ObjectModel.Registry

variable {r : Registry}

-- ================================================================== a new type

/-- A registry with one more type at the end, and one more object that stands
for it. -/
structure Allocates (kind : TypeKind) (superclass : Option TypeId) (r r' : Registry) : Prop where
  has_iff : ∀ {t : TypeId}, r'.Has t ↔ r.Has t ∨ t = ⟨r.size⟩
  holds_iff : ∀ {o : ObjectId}, r'.Holds o ↔ r.Holds o ∨ o = ⟨r.heap.length⟩
  record_old : ∀ {t : TypeId}, t ≠ ⟨r.size⟩ → r'.record t = r.record t
  kind_new : (r'.record ⟨r.size⟩).kind = kind
  superclass_new : (r'.record ⟨r.size⟩).superclass = superclass
  includes_new : (r'.record ⟨r.size⟩).includes = []
  object_new : (r'.record ⟨r.size⟩).object = ⟨r.heap.length⟩
  cell_old : ∀ {o : ObjectId}, o ≠ ⟨r.heap.length⟩ → r'.cell o = r.cell o
  cell_new : r'.cell ⟨r.heap.length⟩ = ⟨kind.metatype, none, moduleShape, .type ⟨r.size⟩⟩

theorem allocates_allocType (r : Registry) (kind : TypeKind) (superclass : Option TypeId)
    (shape : Shape) :
    Allocates kind superclass r (r.allocType kind kind.metatype superclass shape).2 where
  has_iff := has_allocType r
  holds_iff := holds_allocType r
  record_old ne := record_allocType_of_ne r ne
  kind_new := by rw [record_allocType_new]
  superclass_new := by rw [record_allocType_new]
  includes_new := by rw [record_allocType_new]
  object_new := by rw [record_allocType_new]
  cell_old ne := cell_allocType_of_ne r ne
  cell_new := cell_allocType_new r kind kind.metatype superclass shape

namespace Allocates

variable {kind : TypeKind} {superclass : Option TypeId} {r' : Registry}
  (new : Allocates kind superclass r r')

include new

theorem has_old {t : TypeId} (has : r.Has t) : r'.Has t := new.has_iff.mpr (.inl has)

theorem record_eq {t : TypeId} (has : r.Has t) : r'.record t = r.record t :=
  new.record_old (ne_of_has r has)

theorem cell_eq {o : ObjectId} (holds : r.Holds o) : r'.cell o = r.cell o :=
  new.cell_old (ne_of_holds r holds)

/-- What was a class is one. -/
theorem class_old {t : TypeId} (h : r.Has t ∧ (r.record t).kind = .classType) :
    r'.Has t ∧ (r'.record t).kind = .classType := by
  rw [new.record_eq h.1]
  exact ⟨new.has_old h.1, h.2⟩

theorem includes_eq : r'.Includes = r.Includes := by
  funext t m
  unfold Includes
  by_cases ht : t = ⟨r.size⟩
  · rw [ht, new.includes_new, record_of_not_has r (t := ⟨r.size⟩) (Nat.lt_irrefl _)]
    rfl
  · rw [new.record_old ht]

/-- The new type is a class below a type that is there, or a module below
nothing. -/
theorem soundSuperclasses (ok : r.SoundSuperclasses)
    (below : ∀ s, superclass = some s → kind = .classType ∧ r.Has s)
    (rooted : kind = .classType → superclass ≠ none) : r'.SoundSuperclasses := by
  have hfour := ok.four_le_size
  have hcore : ∀ {t : TypeId}, t.index < 4 → r'.record t = r.record t :=
    fun h => new.record_eq (Nat.lt_of_lt_of_le h hfour)
  refine
    { four_le_size := ?_
      core_kind := fun h => by rw [hcore h]; exact ok.core_kind h
      root_superclass := by rw [hcore (by decide)]; exact ok.root_superclass
      meta_superclass := by rw [hcore (by decide)]; exact ok.meta_superclass
      superclass_some := ?_, superclass_none := ?_ }
  · have hhas : r'.Has ⟨r.size⟩ := new.has_iff.mpr (.inr rfl)
    exact Nat.le_trans hfour (Nat.le_of_lt hhas)
  · intro t u h
    by_cases ht : t = ⟨r.size⟩
    · subst ht
      rw [new.superclass_new] at h
      obtain ⟨hkind, hu⟩ := below u h
      rw [new.kind_new, chainRank_of_four_le (t := ⟨r.size⟩) hfour]
      exact ⟨hkind, new.has_old hu, chainRank_lt_size hfour hu⟩
    · rw [new.record_old ht] at h ⊢
      obtain ⟨hkind, hasu, hlt⟩ := ok.superclass_some h
      exact ⟨hkind, new.has_old hasu, hlt⟩
  · intro t has class_ h
    by_cases ht : t = ⟨r.size⟩
    · subst ht
      rw [new.superclass_new] at h
      rw [new.kind_new] at class_
      exact absurd h (rooted class_)
    · rw [new.record_old ht] at h class_
      exact ok.superclass_none ((new.has_iff.mp has).resolve_right ht) class_ h

theorem soundIncludes (ok : r.SoundIncludes) : r'.SoundIncludes where
  includes_module {t m} h := by
    rw [new.includes_eq] at h
    obtain ⟨hasm, hkindm⟩ := ok.includes_module h
    rw [new.record_eq hasm]
    exact ⟨new.has_old hasm, hkindm⟩
  includes_nodup t := by
    by_cases ht : t = ⟨r.size⟩
    · rw [ht, new.includes_new]
      exact List.nodup_nil
    · rw [new.record_old ht]
      exact ok.includes_nodup t
  includes_acyclic := by
    unfold Inside
    rw [new.includes_eq]
    exact ok.includes_acyclic

/-- The new object stands for the new type. -/
theorem soundObjects (ok : r.SoundObjects) (metatype : r.Has kind.metatype) :
    r'.SoundObjects where
  object_holds {t} has := by
    rcases new.has_iff.mp has with hold | rfl
    · rw [new.record_eq hold]
      exact new.holds_iff.mpr (.inl (ok.object_holds hold))
    · rw [new.object_new]
      exact new.holds_iff.mpr (.inr rfl)
  object_denotes {t} has := by
    unfold denotes?
    rcases new.has_iff.mp has with hold | rfl
    · rw [new.record_eq hold, new.cell_eq (ok.object_holds hold)]
      exact ok.object_denotes hold
    · rw [new.object_new, new.cell_new]
  denotes_object {o t} h := by
    unfold denotes? at h
    by_cases ho : o = ⟨r.heap.length⟩
    · subst ho
      rw [new.cell_new] at h
      cases h
      exact ⟨new.has_iff.mpr (.inr rfl), new.object_new⟩
    · rw [new.cell_old ho] at h
      obtain ⟨hold, hobject⟩ := ok.denotes_object h
      rw [new.record_eq hold]
      exact ⟨new.has_old hold, hobject⟩
  object_logical {t} has := by
    rcases new.has_iff.mp has with hold | rfl
    · rw [new.record_eq hold, new.cell_eq (ok.object_holds hold)]
      exact ok.object_logical hold
    · rw [new.object_new, new.cell_new, new.kind_new]
  logical_has {o} holds := by
    rcases new.holds_iff.mp holds with hold | rfl
    · rw [new.cell_eq hold]
      exact new.has_old (ok.logical_has hold)
    · rw [new.cell_new]
      exact new.has_old metatype
  singleton_class {o s} h := by
    by_cases ho : o = ⟨r.heap.length⟩
    · rw [ho, new.cell_new] at h
      cases h
    · rw [new.cell_old ho] at h
      exact new.class_old (ok.singleton_class h)

end Allocates

-- =============================================================== a new include

/-- A module that does not lead back is put in front of what a type includes:
no circle is closed, and no module is there twice. -/
theorem SoundIncludes.link {target m : TypeId} (ok : r.SoundIncludes) (has : r.Has m)
    (module_ : (r.record m).kind = .moduleType)
    (open_ : ¬ Relation.ReflTransGen r.Includes m target) :
    (r.modifyType target fun t =>
      { t with includes := m :: t.includes.filter (· ≠ m) }).SoundIncludes := by
  have hrecord := fun u => record_modifyType r target u fun t =>
      { t with includes := m :: t.includes.filter (· ≠ m) }
  have hkind : ∀ u, ((r.modifyType target fun t =>
      { t with includes := m :: t.includes.filter (· ≠ m) }).record u).kind
        = (r.record u).kind :=
    record_modifyType_kept r TypeRecord.kind fun _ => rfl
  have hsize := size_modifyType r target fun t =>
      { t with includes := m :: t.includes.filter (· ≠ m) }
  generalize (r.modifyType target fun t =>
      { t with includes := m :: t.includes.filter (· ≠ m) }) = r' at *
  have hlinks : ∀ {x y}, r'.Includes x y → r.Includes x y ∨ (x = target ∧ y = m) := by
    intro x y h
    unfold Includes at h
    rw [hrecord] at h
    split at h
    · next hx =>
      rcases List.mem_cons.mp h with rfl | hold
      · exact .inr ⟨hx.1, rfl⟩
      · rw [← hx.1] at hold
        exact .inl (List.mem_of_mem_filter hold)
    · exact .inl h
  refine ⟨?_, ?_, acyclic_of_link hlinks ok.includes_acyclic open_⟩
  · intro t u h
    rw [Has, hsize, hkind]
    rcases hlinks h with hold | ⟨-, rfl⟩
    · exact ok.includes_module hold
    · exact ⟨has, module_⟩
  · intro t
    rw [hrecord]
    split
    · refine List.nodup_cons.mpr ⟨?_, (ok.includes_nodup target).filter _⟩
      simp [List.mem_filter]
    · exact ok.includes_nodup t

-- ========================================================== edits of the graph

namespace WellFormed

variable (wf : r.WellFormed)

include wf

/-- A new type keeps the invariant: a class below a type that is there, or a
module below nothing. -/
theorem allocType (kind : TypeKind) (superclass : Option TypeId) (shape : Shape)
    (below : ∀ s, superclass = some s → kind = .classType ∧ r.Has s)
    (rooted : kind = .classType → superclass ≠ none) :
    (r.allocType kind kind.metatype superclass shape).2.WellFormed :=
  have new := allocates_allocType r kind superclass shape
  { toSoundSuperclasses := new.soundSuperclasses wf.toSoundSuperclasses below rooted
    toSoundIncludes := new.soundIncludes wf.toSoundIncludes
    toSoundObjects := new.soundObjects wf.toSoundObjects (wf.metatype_class kind).1 }

/-- A new object that denotes no type keeps the invariant, whatever it is made
from. -/
theorem allocObject {t : TypeId} {text : Option String} (has : r.Has t) :
    (r.allocObject t (.ofText? text)).2.WellFormed := by
  have hcell : ∀ {o}, r.Holds o → (r.allocObject t (.ofText? text)).2.cell o = r.cell o :=
    fun holds => cell_allocObject_of_ne r (ne_of_holds r holds)
  refine wf.of_sameGraph (.of_types rfl)
    (fun holds => (holds_allocObject r).mpr (.inl holds)) ?_ ?_ ?_ ?_
  · intro o
    unfold denotes?
    by_cases ho : o = ⟨r.heap.length⟩
    · subst ho
      rw [cell_allocObject_new, cell_of_not_holds r (o := ⟨r.heap.length⟩) (Nat.lt_irrefl _)]
      cases text with
      | none => rfl
      | some content => rfl
    · rw [cell_allocObject_of_ne r ho]
  · intro o holds
    rw [hcell holds]
  · intro o holds
    rcases (holds_allocObject r).mp holds with hold | rfl
    · rw [hcell hold]
      exact wf.logical_has hold
    · rw [cell_allocObject_new]
      exact has
  · intro o s h
    by_cases ho : o = ⟨r.heap.length⟩
    · rw [ho, cell_allocObject_new] at h
      cases h
    · rw [cell_allocObject_of_ne r ho] at h
      exact wf.singleton_class h

/-- A singleton link to a class keeps the invariant. -/
theorem linkSingleton {o : ObjectId} {s : TypeId} (has : r.Has s)
    (class_ : (r.record s).kind = .classType) :
    (r.modifyObject o fun object => { object with singleton := some s }).WellFormed := by
  have hlogical : ∀ p, ((r.modifyObject o fun object =>
      { object with singleton := some s }).cell p).logicalType = (r.cell p).logicalType :=
    cell_modifyObject_kept r HeapObject.logicalType fun _ => rfl
  have hpayload : ∀ p, ((r.modifyObject o fun object =>
      { object with singleton := some s }).cell p).payload = (r.cell p).payload :=
    cell_modifyObject_kept r HeapObject.payload fun _ => rfl
  have hholds : ∀ {p}, (r.modifyObject o fun object =>
      { object with singleton := some s }).Holds p ↔ r.Holds p := by
    intro p
    unfold Holds
    rw [length_heap_modifyObject]
  refine wf.of_sameGraph (.of_types rfl) hholds.mpr ?_ (fun _ => hlogical _) ?_ ?_
  · intro p
    unfold denotes?
    rw [hpayload]
  · intro p holds
    rw [hlogical]
    exact wf.logical_has (hholds.mp holds)
  · intro p t h
    rw [cell_modifyObject] at h
    split at h
    · cases h
      exact ⟨has, class_⟩
    · exact wf.singleton_class h

/-- A new include of a module that does not lead back keeps the invariant. -/
theorem linkInclude {target m : TypeId} (has : r.Has m)
    (module_ : (r.record m).kind = .moduleType)
    (open_ : ¬ Relation.ReflTransGen r.Includes m target) :
    (r.modifyType target fun t =>
      { t with includes := m :: t.includes.filter (· ≠ m) }).WellFormed where
  toSoundSuperclasses := wf.toSoundSuperclasses.of_eq (size_modifyType r target _)
    (record_modifyType_kept r TypeRecord.kind fun _ => rfl)
    (record_modifyType_kept r TypeRecord.superclass fun _ => rfl)
  toSoundIncludes := wf.toSoundIncludes.link has module_ open_
  toSoundObjects := wf.toSoundObjects.of_heap (size_modifyType r target _)
    (record_modifyType_kept r TypeRecord.kind fun _ => rfl)
    (record_modifyType_kept r TypeRecord.object fun _ => rfl) rfl

-- ================================================================= definitions

/-- What a value stands for is there. -/
theorem has_of_typeOf? {value : Value} {t : TypeId} (h : r.typeOf? value = some t) : r.Has t := by
  unfold typeOf? at h
  split at h
  · exact (wf.denotes_object h).1
  · cases h

theorem has_of_typeOfKind? {value : Value} {kind : TypeKind} {t : TypeId}
    (h : r.typeOfKind? value kind = some t) : r.Has t := by
  unfold typeOfKind? at h
  split at h
  · next u hu =>
    split at h
    · cases h
      exact wf.has_of_typeOf? hu
    · cases h
  · cases h

theorem defineAnonymousClass {superclass : TypeId} {shape : Option Shape} {t : TypeId}
    {r' : Registry} (has : r.Has superclass)
    (h : r.defineAnonymousClass superclass shape = (.ok t, r')) : r'.WellFormed := by
  obtain ⟨-, hmade⟩ := defineAnonymousClass_inv h
  have hwf := wf.allocType .classType (some superclass)
    (shape.getD (r.record superclass).shape) (by intro s hs; cases hs; exact ⟨rfl, has⟩)
    fun _ => Option.some_ne_none _
  cases hmade
  exact hwf

theorem adopt (t parent : TypeId) (name : String) : (r.adopt t parent name).WellFormed :=
  wf.of_sameHeap (sameGraph_adopt r t parent name) (heap_adopt r t parent name)

theorem defineClassUnder {parent : TypeId} {superclass : Option TypeId} {name : String}
    {shape : Option Shape} {t : TypeId} {r' : Registry}
    (has : ∀ s, superclass = some s → r.Has s)
    (h : r.defineClassUnder parent superclass name shape = (.ok t, r')) : r'.WellFormed := by
  rcases defineClassUnder_inv h with ⟨rfl, -⟩ | ⟨s, made, hs, -, hmade, rfl⟩
  · exact wf
  · exact (wf.defineAnonymousClass (has s hs) hmade).adopt _ _ _

/-- The class that a definition answers is there. -/
theorem has_of_defineClassUnder {parent : TypeId} {superclass : Option TypeId} {name : String}
    {shape : Option Shape} {t : TypeId} {r' : Registry}
    (h : r.defineClassUnder parent superclass name shape = (.ok t, r')) : r'.Has t := by
  rcases defineClassUnder_inv h with ⟨rfl, bound, hbound⟩ | ⟨s, made, -, -, hmade, rfl⟩
  · exact wf.has_of_typeOfKind? hbound
  · obtain ⟨-, halloc⟩ := defineAnonymousClass_inv hmade
    cases halloc
    rw [(sameGraph_adopt _ _ _ _).has_iff]
    exact (has_allocType r).mpr (.inr rfl)

theorem defineModuleUnder {parent : TypeId} {name : String} {t : TypeId} {r' : Registry}
    (h : r.defineModuleUnder parent name = (.ok t, r')) : r'.WellFormed := by
  rcases defineModuleUnder_inv h with ⟨rfl, -⟩ | ⟨made, -, hmade, rfl⟩
  · exact wf
  · have hwf := wf.allocType .moduleType none moduleShape (by intro s hs; cases hs)
      (by intro h; cases h)
    cases hmade
    exact hwf.adopt _ _ _

/-- A module that is mixed in does not lead to the target. -/
theorem not_reaches_of_includeModule {target m : TypeId} {r' : Registry}
    (h : r.includeModule target m = (.ok (), r')) : ¬ Relation.ReflTransGen r.Includes m target := by
  obtain ⟨-, hne, hopen, -⟩ := includeModule_inv h
  rw [← guard_iff wf.nested wf.size_pos, hopen, Bool.or_false, decide_eq_true_eq]
  exact hne

theorem includeModule {target m : TypeId} {r' : Registry}
    (h : r.includeModule target m = (.ok (), r')) : r'.WellFormed := by
  have hopen := wf.not_reaches_of_includeModule h
  obtain ⟨module_, -, -, rfl⟩ := includeModule_inv h
  exact (wf.linkInclude (has_of_module module_) module_ hopen).of_sameHeap (.of_types rfl) rfl

theorem attachSingleton {o : ObjectId} {superclass : TypeId} (has : r.Has superclass) :
    (r.attachSingleton o superclass).2.WellFormed
      ∧ (r.attachSingleton o superclass).2.Has (r.attachSingleton o superclass).1
      ∧ ((r.attachSingleton o superclass).2.record
          (r.attachSingleton o superclass).1).kind = .classType := by
  have hmade := wf.allocType .classType (some superclass) (r.record superclass).shape
    (by intro s hs; cases hs; exact ⟨rfl, has⟩) fun _ => Option.some_ne_none _
  have hnew := record_allocType_new r .classType Core.classType (some superclass)
    (r.record superclass).shape
  have hhas : (r.allocType .classType Core.classType (some superclass)
      (r.record superclass).shape).2.Has ⟨r.size⟩ := (has_allocType r).mpr (.inr rfl)
  unfold Registry.attachSingleton
  have hid : (r.allocType .classType Core.classType (some superclass)
      (r.record superclass).shape).1 = ⟨r.size⟩ := rfl
  simp only [hid]
  change (r.allocType .classType Core.classType (some superclass)
      (r.record superclass).shape).2.WellFormed at hmade
  generalize (r.allocType .classType Core.classType (some superclass)
      (r.record superclass).shape).2 = r' at *
  have hkind : ((r'.modifyType ⟨r.size⟩ fun type =>
      { type with attached := some o }).record ⟨r.size⟩).kind = .classType := by
    refine (record_modifyType_kept r' TypeRecord.kind ?_ _).trans ?_
    · exact fun _ => rfl
    · rw [hnew]
  have hhas' : (r'.modifyType ⟨r.size⟩ fun type =>
      { type with attached := some o }).Has ⟨r.size⟩ := by
    unfold Has
    rw [size_modifyType]
    exact hhas
  have hsame : SameGraph r' (r'.modifyType ⟨r.size⟩ fun type =>
      { type with attached := some o }) := sameGraph_modifyType r' _ fun _ => ⟨rfl, rfl, rfl, rfl⟩
  exact ⟨(hmade.of_sameHeap hsame rfl).linkSingleton hhas' hkind, hhas', hkind⟩

omit wf in
/-- The recursion through the superclasses keeps the invariant, whatever the
fuel, and answers a type that is there. -/
theorem singletonWithin : ∀ (fuel : Nat) {r : Registry}, r.WellFormed → ∀ {o : ObjectId},
    r.Holds o →
      (Registry.singletonWithin fuel r o).2.WellFormed
      ∧ (Registry.singletonWithin fuel r o).2.Has (Registry.singletonWithin fuel r o).1 := by
  intro fuel
  induction fuel with
  | zero =>
      intro r wf o holds
      exact ⟨wf, wf.logical_has holds⟩
  | succ fuel ih =>
      intro r wf o holds
      unfold Registry.singletonWithin
      split
      · next t hs => exact ⟨wf, (wf.singleton_class hs).1⟩
      · have hattach : ∀ {r : Registry}, r.WellFormed → ∀ {superclass : TypeId},
            r.Has superclass → (r.attachSingleton o superclass).2.WellFormed
              ∧ (r.attachSingleton o superclass).2.Has (r.attachSingleton o superclass).1 :=
          fun wf _ has => ⟨(wf.attachSingleton has).1, (wf.attachSingleton has).2.1⟩
        dsimp only
        split
        · exact hattach wf (wf.logical_has holds)
        · split
          · exact hattach wf (wf.metatype_class .moduleType).1
          · exact hattach wf (wf.metatype_class .classType).1
          · next parent _ hparent =>
            obtain ⟨-, hasParent, -⟩ := wf.superclass_some hparent
            obtain ⟨hwf, has⟩ := ih wf (wf.object_holds hasParent)
            exact hattach hwf has

-- =================================================================== operations

/-- Every operation that speaks of what is there keeps the invariant. -/
theorem apply {op : Operation} (valid : op.Valid r) : (op.apply r).WellFormed := by
  cases op with
  | defineClass parent superclass name shape =>
      exact (looks_defineClassUnder ..).keeps wf fun h => wf.defineClassUnder valid.2 h
  | defineAnonymousClass superclass shape =>
      exact (looks_defineAnonymousClass ..).keeps wf fun h => wf.defineAnonymousClass valid h
  | defineModule parent name =>
      exact (looks_defineModuleUnder ..).keeps wf fun h => wf.defineModuleUnder h
  | mixIn target m => exact (looks_includeModule ..).keeps wf fun h => wf.includeModule h
  | setConstant owner name value =>
      exact wf.of_sameHeap (sameGraph_setConstant r owner name value)
        (heap_setConstant r owner name value)
  | defineMethod owner name arity body =>
      exact wf.of_sameHeap (sameGraph_defineMethod r owner name arity body)
        (heap_defineMethod r owner name arity body)
  | makeSingleton o => exact (WellFormed.singletonWithin (r.size + 1) wf valid).1
  | defineShape name fields => exact wf.of_sameHeap (.of_types rfl) rfl
  | makeObject cls text => exact wf.allocObject valid

theorem of_evolves {r' : Registry} (evolves : Evolves r r') : r'.WellFormed := by
  induction evolves with
  | refl => exact wf
  | step op _ valid ih => exact ih.apply valid

end WellFormed

-- =================================================================== the start

/-- The first four types once the circle is closed, before they have names. -/
def closed : Registry :=
  placeholders.modifyType Core.classType fun t => { t with superclass := some Core.moduleType }

theorem not_has_closed {n : Nat} : ¬ closed.Has ⟨n + 4⟩ :=
  fun h => Nat.not_lt_of_le (Nat.le_add_left 4 n) h

theorem not_holds_closed {n : Nat} : ¬ closed.Holds ⟨n + 4⟩ :=
  fun h => Nat.not_lt_of_le (Nat.le_add_left 4 n) h

theorem soundSuperclasses_closed : closed.SoundSuperclasses where
  four_le_size := Nat.le_refl 4
  core_kind {x} h := by
    rcases x with ⟨_ | _ | _ | _ | n⟩
    · rfl
    · rfl
    · rfl
    · rfl
    · exact absurd h not_has_closed
  root_superclass := rfl
  meta_superclass := rfl
  superclass_some {x u} h := by
    rcases x with ⟨_ | _ | _ | _ | n⟩
    · cases h
      exact ⟨rfl, by decide, by decide⟩
    · cases h
    · cases h
      exact ⟨rfl, by decide, by decide⟩
    · cases h
      exact ⟨rfl, by decide, by decide⟩
    · cases h
  superclass_none {x} has class_ h := by
    rcases x with ⟨_ | _ | _ | _ | n⟩
    · cases h
    · rfl
    · cases h
    · cases h
    · exact absurd has not_has_closed

theorem soundIncludes_closed : closed.SoundIncludes := by
  have hincludes : ∀ t, (closed.record t).includes = [] := by
    intro x
    rcases x with ⟨_ | _ | _ | _ | n⟩ <;> rfl
  have hno : ∀ {t m}, ¬ closed.Includes t m := by
    intro t m h
    unfold Includes at h
    rw [hincludes] at h
    cases h
  refine ⟨fun h => absurd h hno, fun t => ?_, fun t h => ?_⟩
  · rw [hincludes]
    exact List.nodup_nil
  · obtain ⟨m, step, -⟩ := Relation.TransGen.head'_iff.mp h
    exact hno step

theorem soundObjects_closed : closed.SoundObjects where
  object_holds {x} has := by
    rcases x with ⟨_ | _ | _ | _ | n⟩
    · decide
    · decide
    · decide
    · decide
    · exact absurd has not_has_closed
  object_denotes {x} has := by
    rcases x with ⟨_ | _ | _ | _ | n⟩
    · rfl
    · rfl
    · rfl
    · rfl
    · exact absurd has not_has_closed
  denotes_object {x t} h := by
    rcases x with ⟨_ | _ | _ | _ | n⟩
    · cases h
      exact ⟨by decide, rfl⟩
    · cases h
      exact ⟨by decide, rfl⟩
    · cases h
      exact ⟨by decide, rfl⟩
    · cases h
      exact ⟨by decide, rfl⟩
    · cases h
  object_logical {x} has := by
    rcases x with ⟨_ | _ | _ | _ | n⟩
    · rfl
    · rfl
    · rfl
    · rfl
    · exact absurd has not_has_closed
  logical_has {x} holds := by
    rcases x with ⟨_ | _ | _ | _ | n⟩
    · decide
    · decide
    · decide
    · decide
    · exact absurd holds not_holds_closed
  singleton_class {x s} h := by
    rcases x with ⟨_ | _ | _ | _ | n⟩
    · cases h
    · cases h
    · cases h
    · cases h
    · cases h

theorem wellFormed_closed : closed.WellFormed :=
  ⟨soundSuperclasses_closed, soundIncludes_closed, soundObjects_closed⟩

theorem wellFormed_initial : initial.WellFormed := by
  unfold initial
  exact (((wellFormed_closed.adopt _ _ _).adopt _ _ _).adopt _ _ _).adopt _ _ _

/-- Every reachable registry is well-formed. -/
theorem Reachable.wellFormed (reachable : r.Reachable) : r.WellFormed :=
  wellFormed_initial.of_evolves reachable

end ObjectModel.Registry
