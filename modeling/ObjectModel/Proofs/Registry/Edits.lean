/-
What the elementary edits of a registry leave in place.

Every definition is made of a few edits: a record or an object is modified in
place, a type or an object is added at the end. Each lemma here reads one part
of the registry after one edit, so that no later proof opens the lists that
records and objects are kept in.
-/
import ObjectModel.Proofs.Places
import ObjectModel.Registry.Operation

namespace ObjectModel.Registry

variable (r : Registry)

-- ============================================================== empty places

/-- Nothing lies beyond the end of the heap. -/
theorem cell_of_not_holds {o : ObjectId} (h : ¬ r.Holds o) : r.cell o = default := by
  unfold cell
  rw [List.getD_eq_getElem?_getD, List.getElem?_eq_none (Nat.le_of_not_lt h)]
  rfl

/-- Nothing lies beyond the last type. -/
theorem record_of_not_has {t : TypeId} (h : ¬ r.Has t) : r.record t = default := by
  unfold record
  rw [List.getD_eq_getElem?_getD, List.getElem?_eq_none (Nat.le_of_not_lt h)]
  rfl

variable {r} in
/-- What has a superclass is there. -/
theorem has_of_superclass {t u : TypeId} (super : (r.record t).superclass = some u) :
    r.Has t := by
  refine Decidable.byContradiction fun hno => ?_
  rw [record_of_not_has r hno] at super
  cases super

variable {r} in
/-- What is no class is there. -/
theorem has_of_module {m : TypeId} (module_ : (r.record m).kind = .moduleType) : r.Has m := by
  refine Decidable.byContradiction fun hno => ?_
  rw [record_of_not_has r hno] at module_
  cases module_

-- ============================================================ modified records

@[simp] theorem size_modifyType (t : TypeId) (change : TypeRecord → TypeRecord) :
    (r.modifyType t change).size = r.size := by
  unfold modifyType size
  exact List.length_modify ..

@[simp] theorem heap_modifyType (t : TypeId) (change : TypeRecord → TypeRecord) :
    (r.modifyType t change).heap = r.heap := rfl

@[simp] theorem cell_modifyType (t : TypeId) (change : TypeRecord → TypeRecord)
    (o : ObjectId) : (r.modifyType t change).cell o = r.cell o := rfl

/-- A change reaches the record that it is made at, if there is one. -/
theorem record_modifyType (t u : TypeId) (change : TypeRecord → TypeRecord) :
    (r.modifyType t change).record u
      = if u = t ∧ r.Has t then change (r.record t) else r.record u := by
  obtain ⟨i⟩ := t
  obtain ⟨j⟩ := u
  simp only [TypeId.mk.injEq]
  exact getD_modify ..

/-- A part that a change keeps is kept in every record. -/
theorem record_modifyType_kept {α : Type} (part : TypeRecord → α) {t : TypeId}
    {change : TypeRecord → TypeRecord} (kept : ∀ x, part (change x) = part x) (u : TypeId) :
    part ((r.modifyType t change).record u) = part (r.record u) := by
  rw [record_modifyType]
  by_cases h : u = t ∧ r.Has t
  · rw [if_pos h, kept, h.1]
  · rw [if_neg h]

-- ============================================================ modified objects

@[simp] theorem size_modifyObject (o : ObjectId) (change : HeapObject → HeapObject) :
    (r.modifyObject o change).size = r.size := rfl

@[simp] theorem record_modifyObject (o : ObjectId) (change : HeapObject → HeapObject)
    (t : TypeId) : (r.modifyObject o change).record t = r.record t := rfl

@[simp] theorem length_heap_modifyObject (o : ObjectId) (change : HeapObject → HeapObject) :
    (r.modifyObject o change).heap.length = r.heap.length := by
  unfold modifyObject
  exact List.length_modify ..

/-- A change reaches the object that it is made at, if there is one. -/
theorem cell_modifyObject (o p : ObjectId) (change : HeapObject → HeapObject) :
    (r.modifyObject o change).cell p
      = if p = o ∧ r.Holds o then change (r.cell o) else r.cell p := by
  obtain ⟨i⟩ := o
  obtain ⟨j⟩ := p
  simp only [ObjectId.mk.injEq]
  exact getD_modify ..

/-- A part that a change keeps is kept in every object. -/
theorem cell_modifyObject_kept {α : Type} (part : HeapObject → α) {o : ObjectId}
    {change : HeapObject → HeapObject} (kept : ∀ x, part (change x) = part x) (p : ObjectId) :
    part ((r.modifyObject o change).cell p) = part (r.cell p) := by
  rw [cell_modifyObject]
  by_cases h : p = o ∧ r.Holds o
  · rw [if_pos h, kept, h.1]
  · rw [if_neg h]

-- ================================================================ new objects

@[simp] theorem length_heap_allocObject (t : TypeId) (payload : Payload) :
    (r.allocObject t payload).2.heap.length = r.heap.length + 1 := by
  unfold allocObject
  exact List.length_append ..

theorem cell_allocObject_of_ne {t : TypeId} {payload : Payload} {o : ObjectId}
    (ne : o ≠ ⟨r.heap.length⟩) : (r.allocObject t payload).2.cell o = r.cell o := by
  refine getD_concat_of_ne _ _ _ fun h => ne ?_
  cases o
  simp_all

/-- An object of a heap with one more is an old one or the last one. -/
theorem holds_of_length_succ {r' : Registry} (length : r'.heap.length = r.heap.length + 1)
    {o : ObjectId} : r'.Holds o ↔ r.Holds o ∨ o = ⟨r.heap.length⟩ := by
  unfold Holds
  rw [length]
  constructor
  · intro h
    rcases Nat.lt_succ_iff_lt_or_eq.mp h with h | h
    · exact .inl h
    · exact .inr (by cases o; simp_all)
  · intro h
    rcases h with h | rfl
    · exact Nat.lt_succ_of_lt h
    · exact Nat.lt_succ_self _

theorem holds_allocObject {t : TypeId} {payload : Payload} {o : ObjectId} :
    (r.allocObject t payload).2.Holds o ↔ r.Holds o ∨ o = ⟨r.heap.length⟩ :=
  holds_of_length_succ r (length_heap_allocObject r t payload)

theorem cell_allocObject_new (t : TypeId) (payload : Payload) :
    (r.allocObject t payload).2.cell ⟨r.heap.length⟩
      = ⟨t, none, (r.record t).shape, payload⟩ := by
  unfold cell allocObject
  exact getD_concat_self ..

-- ================================================================== new types

section allocType

variable (kind : TypeKind) (logicalType : TypeId) (superclass : Option TypeId) (shape : Shape)

@[simp] theorem size_allocType :
    (r.allocType kind logicalType superclass shape).2.size = r.size + 1 := by
  unfold allocType size
  exact List.length_append ..

@[simp] theorem length_heap_allocType :
    (r.allocType kind logicalType superclass shape).2.heap.length = r.heap.length + 1 := by
  unfold allocType
  exact List.length_append ..

/-- The record of a new type. -/
theorem record_allocType_new :
    (r.allocType kind logicalType superclass shape).2.record ⟨r.size⟩
      = { kind, name := none, lexicalParent := none, superclass, includes := [],
          constants := .empty, methods := .empty, shape, object := ⟨r.heap.length⟩,
          attached := none } := by
  unfold record allocType size
  exact getD_concat_self ..

/-- The object that stands for a new type. -/
theorem cell_allocType_new :
    (r.allocType kind logicalType superclass shape).2.cell ⟨r.heap.length⟩
      = ⟨logicalType, none, moduleShape, .type ⟨r.size⟩⟩ := by
  unfold cell allocType size
  exact getD_concat_self ..

variable {kind logicalType superclass shape}

theorem record_allocType_of_ne {t : TypeId} (ne : t ≠ ⟨r.size⟩) :
    (r.allocType kind logicalType superclass shape).2.record t = r.record t := by
  refine getD_concat_of_ne _ _ _ fun h => ne ?_
  cases t
  simp_all [size]

/-- A part that is blank in a new type is the same for every type as before. -/
theorem record_allocType_kept {α : Type} (part : TypeRecord → α)
    (blank : part
      { kind, name := none, lexicalParent := none, superclass, includes := [],
        constants := .empty, methods := .empty, shape, object := ⟨r.heap.length⟩,
        attached := none } = part default) (t : TypeId) :
    part ((r.allocType kind logicalType superclass shape).2.record t) = part (r.record t) := by
  by_cases ht : t = ⟨r.size⟩
  · rw [ht, record_allocType_new, record_of_not_has r (t := ⟨r.size⟩) (Nat.lt_irrefl _), blank]
  · rw [record_allocType_of_ne r ht]

theorem cell_allocType_of_ne {o : ObjectId} (ne : o ≠ ⟨r.heap.length⟩) :
    (r.allocType kind logicalType superclass shape).2.cell o = r.cell o := by
  refine getD_concat_of_ne _ _ _ fun h => ne ?_
  cases o
  simp_all

/-- A type of the larger registry is an old one or the new one. -/
theorem has_allocType {t : TypeId} :
    (r.allocType kind logicalType superclass shape).2.Has t ↔ r.Has t ∨ t = ⟨r.size⟩ := by
  unfold Has
  rw [size_allocType]
  constructor
  · intro h
    rcases Nat.lt_succ_iff_lt_or_eq.mp h with h | h
    · exact .inl h
    · exact .inr (by cases t; simp_all)
  · intro h
    rcases h with h | rfl
    · exact Nat.lt_succ_of_lt h
    · exact Nat.lt_succ_self _

/-- An object of the larger heap is an old one or the new one. -/
theorem holds_allocType {o : ObjectId} :
    (r.allocType kind logicalType superclass shape).2.Holds o
      ↔ r.Holds o ∨ o = ⟨r.heap.length⟩ :=
  holds_of_length_succ r (length_heap_allocType r _ _ _ _)

end allocType

-- ============================================================== ids in range

theorem ne_of_has {t : TypeId} (has : r.Has t) : t ≠ ⟨r.size⟩ := by
  intro heq
  subst heq
  exact Nat.lt_irrefl _ has

theorem ne_of_holds {o : ObjectId} (holds : r.Holds o) : o ≠ ⟨r.heap.length⟩ := by
  intro heq
  subst heq
  exact Nat.lt_irrefl _ holds

-- ======================================================== new singleton types

theorem attachSingleton_eq (o : ObjectId) (superclass : TypeId) :
    r.attachSingleton o superclass
      = (⟨r.size⟩,
          ((r.allocType .classType Core.classType (some superclass)
            (r.record superclass).shape).2.modifyType ⟨r.size⟩ fun type =>
              { type with attached := some o }).modifyObject o fun object =>
                { object with singleton := some ⟨r.size⟩ }) := rfl

/-- The object of a new type has no singleton type, and the others keep theirs. -/
theorem singleton_allocType (kind : TypeKind) (logicalType : TypeId)
    (superclass : Option TypeId) (shape : Shape) (p : ObjectId) :
    ((r.allocType kind logicalType superclass shape).2.cell p).singleton
      = (r.cell p).singleton := by
  by_cases hp : p = ⟨r.heap.length⟩
  · rw [hp, cell_allocType_new, cell_of_not_holds r (o := ⟨r.heap.length⟩) (Nat.lt_irrefl _)]
    rfl
  · rw [cell_allocType_of_ne r hp]

/-- A new type is attached to nothing, and the others stay attached as they are. -/
theorem attached_allocType (kind : TypeKind) (logicalType : TypeId)
    (superclass : Option TypeId) (shape : Shape) (t : TypeId) :
    ((r.allocType kind logicalType superclass shape).2.record t).attached
      = (r.record t).attached :=
  record_allocType_kept r TypeRecord.attached rfl t

section attachSingleton

variable (o : ObjectId) (superclass : TypeId)

@[simp] theorem size_attachSingleton : (r.attachSingleton o superclass).2.size = r.size + 1 := by
  rw [attachSingleton_eq, size_modifyObject, size_modifyType, size_allocType]

@[simp] theorem length_heap_attachSingleton :
    (r.attachSingleton o superclass).2.heap.length = r.heap.length + 1 := by
  rw [attachSingleton_eq, length_heap_modifyObject, heap_modifyType, length_heap_allocType]

/-- The record of a new singleton type. -/
theorem record_attachSingleton_new :
    (r.attachSingleton o superclass).2.record ⟨r.size⟩
      = { kind := .classType, name := none, lexicalParent := none,
          superclass := some superclass, includes := [], constants := .empty,
          methods := .empty, shape := (r.record superclass).shape,
          object := ⟨r.heap.length⟩, attached := some o } := by
  have hnew := record_allocType_new r .classType Core.classType (some superclass)
    (r.record superclass).shape
  have hhas : (r.allocType .classType Core.classType (some superclass)
      (r.record superclass).shape).2.Has ⟨r.size⟩ := (has_allocType r).mpr (.inr rfl)
  rw [attachSingleton_eq, record_modifyObject, record_modifyType, if_pos ⟨rfl, hhas⟩, hnew]

variable {o superclass}

theorem record_attachSingleton_of_ne {t : TypeId} (ne : t ≠ ⟨r.size⟩) :
    (r.attachSingleton o superclass).2.record t = r.record t := by
  rw [attachSingleton_eq, record_modifyObject, record_modifyType, if_neg (fun h => ne h.1),
    record_allocType_of_ne r ne]

/-- The object gets the new type as its singleton. -/
theorem singleton_attachSingleton_self (holds : r.Holds o) :
    ((r.attachSingleton o superclass).2.cell o).singleton = some ⟨r.size⟩ := by
  have hholds : (r.allocType .classType Core.classType (some superclass)
      (r.record superclass).shape).2.Holds o := (holds_allocType r).mpr (.inl holds)
  rw [attachSingleton_eq, cell_modifyObject, if_pos ⟨rfl, hholds⟩]

variable (superclass) in
/-- The object that stands for a new singleton type. -/
theorem cell_attachSingleton_new (holds : r.Holds o) :
    (r.attachSingleton o superclass).2.cell ⟨r.heap.length⟩
      = ⟨Core.classType, none, moduleShape, .type ⟨r.size⟩⟩ := by
  rw [attachSingleton_eq, cell_modifyObject, if_neg fun h => ne_of_holds r holds h.1.symm,
    cell_modifyType, cell_allocType_new]

/-- Of an object that was there, at most the singleton is another one. -/
theorem cell_attachSingleton_of_holds {p : ObjectId} (holds : r.Holds p) :
    (r.attachSingleton o superclass).2.cell p
      = { r.cell p with singleton := ((r.attachSingleton o superclass).2.cell p).singleton } := by
  have hcell : (r.allocType .classType Core.classType (some superclass)
      (r.record superclass).shape).2.cell p = r.cell p :=
    cell_allocType_of_ne r (ne_of_holds r holds)
  rw [attachSingleton_eq]
  simp only [cell_modifyObject, cell_modifyType]
  split
  · next h =>
    obtain ⟨rfl, -⟩ := h
    rw [hcell]
  · rw [hcell]

end attachSingleton

/-- Attaching a singleton type changes the singleton of no other object. -/
theorem singleton_attachSingleton_of_ne {o p : ObjectId} (superclass : TypeId) (ne : p ≠ o) :
    ((r.attachSingleton o superclass).2.cell p).singleton = (r.cell p).singleton := by
  rw [attachSingleton_eq, cell_modifyObject, if_neg (fun h => ne h.1), cell_modifyType,
    singleton_allocType]

end ObjectModel.Registry
