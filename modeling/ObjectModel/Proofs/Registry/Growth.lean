/-
What operations leave as it was.

`Grows`: nothing is ever taken back. Types and objects stay where they are, a
type keeps its kind, its superclass and its object, an object keeps its class,
its payload and, once it has one, its singleton type. And the epoch tells the
truth: while it stands still, the types that were there keep what they mix in
and what they define.

The delicate case is a singleton link, which must not replace another one. The
recursion that makes singleton types looks before it goes up, links after it
came back, and makes others in between; none of these can be for the same
object, because they are for the objects of superclasses, whose rank is lower.
-/
import ObjectModel.Proofs.Registry.TypeGraph

namespace ObjectModel.Registry

/-- What a type keeps for ever. -/
structure SameIdentity (a b : TypeRecord) : Prop where
  kind_eq : a.kind = b.kind
  superclass_eq : a.superclass = b.superclass
  object_eq : a.object = b.object

/-- What a type keeps while the epoch stands still. -/
structure SameTables (a b : TypeRecord) : Prop where
  includes_eq : a.includes = b.includes
  methods_eq : a.methods = b.methods

/-- What an object keeps for ever. -/
structure SameHeader (a b : HeapObject) : Prop where
  logicalType_eq : a.logicalType = b.logicalType
  payload_eq : a.payload = b.payload

/-- One registry has grown into another. -/
structure Grows (r r' : Registry) : Prop where
  size_le : r.size ≤ r'.size
  heap_le : r.heap.length ≤ r'.heap.length
  epoch_le : r.epoch ≤ r'.epoch
  identity : ∀ {t : TypeId}, r.Has t → SameIdentity (r'.record t) (r.record t)
  header : ∀ {o : ObjectId}, r.Holds o → SameHeader (r'.cell o) (r.cell o)
  singleton_some : ∀ {o : ObjectId} {s : TypeId}, (r.cell o).singleton = some s →
    (r'.cell o).singleton = some s
  tables : r'.epoch = r.epoch → ∀ {t : TypeId}, r.Has t →
    SameTables (r'.record t) (r.record t)

namespace Grows

variable {a b c r r' : Registry}

theorem refl (r : Registry) : Grows r r where
  size_le := Nat.le_refl _
  heap_le := Nat.le_refl _
  epoch_le := Nat.le_refl _
  identity _ := ⟨rfl, rfl, rfl⟩
  header _ := ⟨rfl, rfl⟩
  singleton_some h := h
  tables _ _ _ := ⟨rfl, rfl⟩

theorem has (grows : Grows r r') {t : TypeId} (h : r.Has t) : r'.Has t :=
  Nat.lt_of_lt_of_le h grows.size_le

theorem holds (grows : Grows r r') {o : ObjectId} (h : r.Holds o) : r'.Holds o :=
  Nat.lt_of_lt_of_le h grows.heap_le

/-- An object stands for a type for ever, or for none. -/
theorem denotes?_eq (grows : Grows r r') {o : ObjectId} (h : r.Holds o) :
    r'.denotes? o = r.denotes? o := by
  unfold denotes?
  rw [(grows.header h).payload_eq]

theorem trans (hab : Grows a b) (hbc : Grows b c) : Grows a c where
  size_le := Nat.le_trans hab.size_le hbc.size_le
  heap_le := Nat.le_trans hab.heap_le hbc.heap_le
  epoch_le := Nat.le_trans hab.epoch_le hbc.epoch_le
  identity h :=
    { kind_eq := (hbc.identity (hab.has h)).kind_eq.trans (hab.identity h).kind_eq
      superclass_eq :=
        (hbc.identity (hab.has h)).superclass_eq.trans (hab.identity h).superclass_eq
      object_eq := (hbc.identity (hab.has h)).object_eq.trans (hab.identity h).object_eq }
  header h :=
    { logicalType_eq :=
        (hbc.header (hab.holds h)).logicalType_eq.trans (hab.header h).logicalType_eq
      payload_eq := (hbc.header (hab.holds h)).payload_eq.trans (hab.header h).payload_eq }
  singleton_some h := hbc.singleton_some (hab.singleton_some h)
  tables h := by
    -- the epoch only grows, so it stood still on both halves of the way
    have hle := hab.epoch_le
    have hle' := hbc.epoch_le
    have hfirst : b.epoch = a.epoch := by omega
    have hsecond : c.epoch = b.epoch := by omega
    intro t has
    have htables := hab.tables hfirst has
    have htables' := hbc.tables hsecond (hab.has has)
    exact
      { includes_eq := htables'.includes_eq.trans htables.includes_eq
        methods_eq := htables'.methods_eq.trans htables.methods_eq }

/-- What is stored beside types, objects and the epoch does not matter. -/
theorem of_eq (types : r'.types = r.types) (heap : r'.heap = r.heap)
    (epoch : r'.epoch = r.epoch) : Grows r r' := by
  obtain ⟨types', heap', shapes', epoch'⟩ := r'
  obtain rfl := types
  obtain rfl := heap
  obtain rfl := epoch
  exact { refl r with }

-- ===================================================== edits that only add

/-- A change that keeps what lookups read. -/
theorem modifyType (r : Registry) (t : TypeId) {change : TypeRecord → TypeRecord}
    (identity : ∀ x, SameIdentity (change x) x) (tables : ∀ x, SameTables (change x) x) :
    Grows r (r.modifyType t change) where
  size_le := Nat.le_of_eq (size_modifyType r t change).symm
  heap_le := Nat.le_refl _
  epoch_le := Nat.le_refl _
  identity {u} _ :=
    { kind_eq := record_modifyType_kept r TypeRecord.kind (fun x => (identity x).kind_eq) u
      superclass_eq :=
        record_modifyType_kept r TypeRecord.superclass (fun x => (identity x).superclass_eq) u
      object_eq :=
        record_modifyType_kept r TypeRecord.object (fun x => (identity x).object_eq) u }
  header _ := ⟨rfl, rfl⟩
  singleton_some h := h
  tables _ {u} _ :=
    { includes_eq :=
        record_modifyType_kept r TypeRecord.includes (fun x => (tables x).includes_eq) u
      methods_eq :=
        record_modifyType_kept r TypeRecord.methods (fun x => (tables x).methods_eq) u }

/-- A change that moves the epoch may do more. -/
theorem modifyType_bumpEpoch (r : Registry) (t : TypeId) {change : TypeRecord → TypeRecord}
    (identity : ∀ x, SameIdentity (change x) x) :
    Grows r (r.modifyType t change).bumpEpoch where
  size_le := Nat.le_of_eq (size_modifyType r t change).symm
  heap_le := Nat.le_refl _
  epoch_le := Nat.le_succ _
  identity {u} _ :=
    { kind_eq := record_modifyType_kept r TypeRecord.kind (fun x => (identity x).kind_eq) u
      superclass_eq :=
        record_modifyType_kept r TypeRecord.superclass (fun x => (identity x).superclass_eq) u
      object_eq :=
        record_modifyType_kept r TypeRecord.object (fun x => (identity x).object_eq) u }
  header _ := ⟨rfl, rfl⟩
  singleton_some h := h
  tables h := absurd h (Nat.succ_ne_self r.epoch)

theorem allocType (r : Registry) (kind : TypeKind) (logicalType : TypeId)
    (superclass : Option TypeId) (shape : Shape) :
    Grows r (r.allocType kind logicalType superclass shape).2 where
  size_le := by
    rw [size_allocType]
    exact Nat.le_succ _
  heap_le := by
    rw [length_heap_allocType]
    exact Nat.le_succ _
  epoch_le := Nat.le_refl _
  identity h := by
    rw [record_allocType_of_ne r (ne_of_has r h)]
    exact ⟨rfl, rfl, rfl⟩
  header h := by
    rw [cell_allocType_of_ne r (ne_of_holds r h)]
    exact ⟨rfl, rfl⟩
  singleton_some {o} {s} h := by
    by_cases holds : r.Holds o
    · rw [cell_allocType_of_ne r (ne_of_holds r holds)]
      exact h
    · rw [cell_of_not_holds r holds] at h
      cases h
  tables _ h := by
    intro has
    rw [record_allocType_of_ne r (ne_of_has r has)]
    exact ⟨rfl, rfl⟩

theorem allocObject (r : Registry) (t : TypeId) (payload : Payload) :
    Grows r (r.allocObject t payload).2 where
  size_le := Nat.le_refl _
  heap_le := by
    rw [length_heap_allocObject]
    exact Nat.le_succ _
  epoch_le := Nat.le_refl _
  identity _ := ⟨rfl, rfl, rfl⟩
  header h := by
    rw [cell_allocObject_of_ne r (ne_of_holds r h)]
    exact ⟨rfl, rfl⟩
  singleton_some {o} {s} h := by
    by_cases holds : r.Holds o
    · rw [cell_allocObject_of_ne r (ne_of_holds r holds)]
      exact h
    · rw [cell_of_not_holds r holds] at h
      cases h
  tables _ _ := fun _ => ⟨rfl, rfl⟩

/-- A singleton link, where there was none. -/
theorem linkSingleton {o : ObjectId} {s : TypeId} (free : (r.cell o).singleton = none) :
    Grows r (r.modifyObject o fun object => { object with singleton := some s }) where
  size_le := Nat.le_refl _
  heap_le := Nat.le_of_eq (length_heap_modifyObject r o _).symm
  epoch_le := Nat.le_refl _
  identity _ := ⟨rfl, rfl, rfl⟩
  header {p} _ :=
    { logicalType_eq := by
        refine cell_modifyObject_kept r HeapObject.logicalType ?_ p
        exact fun _ => rfl
      payload_eq := by
        refine cell_modifyObject_kept r HeapObject.payload ?_ p
        exact fun _ => rfl }
  singleton_some {p} {u} h := by
    rw [cell_modifyObject, if_neg]
    · exact h
    · intro h
      obtain ⟨rfl, -⟩ := h
      rw [free] at h
      cases h
  tables _ _ := fun _ => ⟨rfl, rfl⟩

-- ================================================================ definitions

theorem adopt (r : Registry) (t parent : TypeId) (name : String) :
    Grows r (r.adopt t parent name) := by
  unfold Registry.adopt bind
  refine (modifyType r t (fun x => ?_) fun x => ?_).trans
    (modifyType _ parent (fun _ => ⟨rfl, rfl, rfl⟩) fun _ => ⟨rfl, rfl⟩)
  · split
    · exact ⟨rfl, rfl, rfl⟩
    · exact ⟨rfl, rfl, rfl⟩
  · split
    · exact ⟨rfl, rfl⟩
    · exact ⟨rfl, rfl⟩

theorem setConstant (r : Registry) (owner : TypeId) (name : String) (value : Value) :
    Grows r (r.setConstant owner name value) := by
  have hbind : Grows r (r.bind owner name value) :=
    modifyType r owner (fun _ => ⟨rfl, rfl, rfl⟩) fun _ => ⟨rfl, rfl⟩
  unfold Registry.setConstant
  split
  · split
    · exact adopt r _ _ _
    · exact hbind
  · exact hbind

theorem defineMethod (r : Registry) (owner : TypeId) (name : String) (arity : Arity)
    (body : Body) : Grows r (r.defineMethod owner name arity body) :=
  modifyType_bumpEpoch r owner fun _ => ⟨rfl, rfl, rfl⟩

theorem defineAnonymousClass {superclass : TypeId} {shape : Option Shape} {t : TypeId}
    (h : r.defineAnonymousClass superclass shape = (.ok t, r')) : Grows r r' := by
  obtain ⟨-, hmade⟩ := defineAnonymousClass_inv h
  cases hmade
  exact allocType r _ _ _ _

theorem defineClassUnder {parent : TypeId} {superclass : Option TypeId} {name : String}
    {shape : Option Shape} {t : TypeId}
    (h : r.defineClassUnder parent superclass name shape = (.ok t, r')) : Grows r r' := by
  rcases defineClassUnder_inv h with ⟨rfl, -⟩ | ⟨s, made, -, -, hmade, rfl⟩
  · exact refl _
  · exact (defineAnonymousClass hmade).trans (adopt _ _ _ _)

theorem defineModuleUnder {parent : TypeId} {name : String} {t : TypeId}
    (h : r.defineModuleUnder parent name = (.ok t, r')) : Grows r r' := by
  rcases defineModuleUnder_inv h with ⟨rfl, -⟩ | ⟨made, -, hmade, rfl⟩
  · exact refl _
  · cases hmade
    exact (allocType r _ _ _ _).trans (adopt _ _ _ _)

theorem includeModule {target m : TypeId} (h : r.includeModule target m = (.ok (), r')) :
    Grows r r' := by
  obtain ⟨-, -, -, rfl⟩ := includeModule_inv h
  exact modifyType_bumpEpoch r target fun _ => ⟨rfl, rfl, rfl⟩

-- ================================================================= singletons

theorem attachSingleton {o : ObjectId} {superclass : TypeId}
    (free : (r.cell o).singleton = none) : Grows r (r.attachSingleton o superclass).2 := by
  have hmade := allocType r .classType Core.classType (some superclass)
    (r.record superclass).shape
  rw [attachSingleton_eq]
  refine hmade.trans ((modifyType _ ⟨r.size⟩ (fun _ => ?_) fun _ => ?_).trans
    (linkSingleton ?_))
  · exact ⟨rfl, rfl, rfl⟩
  · exact ⟨rfl, rfl⟩
  · rw [cell_modifyType, singleton_allocType]
    exact free

/-- Making a singleton type for the object of a type leaves alone the
singletons of the objects of all types of a higher rank. -/
theorem singleton_kept_of_rank_lt : ∀ (fuel : Nat) {r : Registry}, r.WellFormed →
    ∀ {o p : ObjectId} {t u : TypeId}, r.denotes? p = some t → r.denotes? o = some u →
    chainRank u < chainRank t →
      ((singletonWithin fuel r o).2.cell p).singleton = (r.cell p).singleton := by
  intro fuel
  induction fuel with
  | zero => intros; rfl
  | succ fuel ih =>
      intro r wf o p t u hp ho hlt
      have hne : p ≠ o := by
        intro heq
        subst heq
        rw [hp] at ho
        cases ho
        exact Nat.lt_irrefl _ hlt
      unfold singletonWithin
      split
      · rfl
      · rw [ho]
        dsimp only
        split
        · exact singleton_attachSingleton_of_ne r _ hne
        · exact singleton_attachSingleton_of_ne r _ hne
        · next parent _ hparent =>
          obtain ⟨-, hasParent, hrank⟩ := wf.superclass_some hparent
          have hkept := ih wf hp (wf.object_denotes hasParent) (Nat.lt_trans hrank hlt)
          exact (singleton_attachSingleton_of_ne _ _ hne).trans hkept

/-- No singleton link is replaced on the way up. -/
theorem singletonWithin : ∀ (fuel : Nat) {r : Registry}, r.WellFormed → ∀ (o : ObjectId),
    Grows r (Registry.singletonWithin fuel r o).2 := by
  intro fuel
  induction fuel with
  | zero => intro r _ o; exact refl r
  | succ fuel ih =>
      intro r wf o
      unfold Registry.singletonWithin
      split
      · exact refl r
      · next free =>
        dsimp only
        split
        · exact attachSingleton free
        · next t ho =>
          split
          · exact attachSingleton free
          · exact attachSingleton free
          · next parent _ hparent =>
            obtain ⟨-, hasParent, hrank⟩ := wf.superclass_some hparent
            have hkept := singleton_kept_of_rank_lt fuel wf ho (wf.object_denotes hasParent) hrank
            exact (ih wf _).trans (attachSingleton (hkept.trans free))

-- ================================================================== operations

/-- Every operation only adds. -/
theorem apply (wf : r.WellFormed) (op : Operation) : Grows r (op.apply r) := by
  cases op with
  | defineClass parent superclass name shape =>
      exact (looks_defineClassUnder ..).keeps (refl r) fun h => defineClassUnder h
  | defineAnonymousClass superclass shape =>
      exact (looks_defineAnonymousClass ..).keeps (refl r) fun h => defineAnonymousClass h
  | defineModule parent name =>
      exact (looks_defineModuleUnder ..).keeps (refl r) fun h => defineModuleUnder h
  | mixIn target m => exact (looks_includeModule ..).keeps (refl r) fun h => includeModule h
  | setConstant owner name value => exact setConstant r owner name value
  | defineMethod owner name arity body => exact defineMethod r owner name arity body
  | makeSingleton o => exact singletonWithin _ wf o
  | defineShape name fields => exact of_eq rfl rfl rfl
  | makeObject cls text => exact allocObject r cls _

end Grows

/-- A registry grows as it evolves. -/
theorem Evolves.grows {r r' : Registry} (evolves : Evolves r r') (wf : r.WellFormed) :
    Grows r r' := by
  induction evolves with
  | refl => exact .refl _
  | step op before _ ih => exact ih.trans (.apply (wf.of_evolves before) op)

-- ================================================================ kept tables

/-- A registry has grown, and the types that were there mix in and define what
they did. -/
structure Keeps (r r' : Registry) : Prop where
  grows : Grows r r'
  tables : ∀ {t : TypeId}, r.Has t → SameTables (r'.record t) (r.record t)

namespace Keeps

variable {a b c r r' : Registry}

theorem refl (r : Registry) : Keeps r r := ⟨.refl r, fun _ => ⟨rfl, rfl⟩⟩

theorem trans (hab : Keeps a b) (hbc : Keeps b c) : Keeps a c where
  grows := hab.grows.trans hbc.grows
  tables h :=
    { includes_eq :=
        (hbc.tables (hab.grows.has h)).includes_eq.trans (hab.tables h).includes_eq
      methods_eq := (hbc.tables (hab.grows.has h)).methods_eq.trans (hab.tables h).methods_eq }

/-- While the epoch stands still, all tables are kept. -/
theorem of_epoch (grows : Grows r r') (epoch : r'.epoch = r.epoch) : Keeps r r' :=
  ⟨grows, grows.tables epoch⟩

/-- A method of a newer type. -/
theorem defineMethod (keeps : Keeps a r) {owner : TypeId} (newer : ¬ a.Has owner) (name : String)
    (arity : Arity) (body : Body) : Keeps a (r.defineMethod owner name arity body) where
  grows := keeps.grows.trans (.defineMethod r owner name arity body)
  tables {t} has := by
    have hne : t ≠ owner := by
      rintro rfl
      exact newer has
    have hrecord : (r.defineMethod owner name arity body).record t = r.record t :=
      (record_modifyType r owner t _).trans (if_neg fun h => hne h.1)
    rw [hrecord]
    exact keeps.tables has

end Keeps

end ObjectModel.Registry
