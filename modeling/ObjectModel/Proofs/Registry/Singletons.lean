/-
Singleton types mirror the objects that they are attached to.

`Mirrored` is the invariant: an object and its singleton type point at each
other, singleton types have no names, and the superclass of a singleton type is
the one that its object asks for (`singletonSuper?`), which for the object of a
class is the singleton type of the superclass. Links of types and objects are
for ever, so what an object asks for stays as it is once it is there
(`singletonSuper?_mono`); an operation therefore only has to account for the
singleton types that it makes. All operations but one make none
(`SameSingletons`), and the one that does makes them from the top of a chain
downwards, so each finds the one above it in place.
-/
import ObjectModel.Proofs.Registry.Growth

namespace ObjectModel.Registry

variable {r r' : Registry}

/-- The superclass of the singleton type of an object, nothing if that is a
singleton type that is not there yet. -/
def singletonSuper? (r : Registry) (o : ObjectId) : Option TypeId :=
  match r.denotes? o with
  | none => some (r.cell o).logicalType
  | some t =>
    match (r.record t).kind, (r.record t).superclass with
    | .moduleType, _ => some Core.moduleType
    | .classType, none => some Core.classType
    | .classType, some parent => (r.cell (r.record parent).object).singleton

/-- Objects and singleton types point at each other, and the superclasses of
singleton types mirror what they are attached to. -/
structure Mirrored (r : Registry) : Prop where
  singleton_iff : ∀ {o : ObjectId} {s : TypeId},
    (r.cell o).singleton = some s ↔ (r.record s).attached = some o
  nameless : ∀ {o : ObjectId} {s : TypeId}, (r.record s).attached = some o →
    (r.record s).name = none
  superclass_some : ∀ {o : ObjectId} {s : TypeId}, (r.record s).attached = some o →
    ∃ u, r.singletonSuper? o = some u ∧ (r.record s).superclass = some u

-- =============================================================== what is there

theorem has_of_attached {o : ObjectId} {s : TypeId} (h : (r.record s).attached = some o) :
    r.Has s := by
  by_contra hno
  rw [record_of_not_has r hno] at h
  cases h

theorem holds_of_singleton {o : ObjectId} {s : TypeId} (h : (r.cell o).singleton = some s) :
    r.Holds o := by
  by_contra hno
  rw [cell_of_not_holds r hno] at h
  cases h

-- ============================================== the superclass of a singleton

section singletonSuper?

variable {o : ObjectId} {t : TypeId}

theorem singletonSuper?_of_object (h : r.denotes? o = none) :
    r.singletonSuper? o = some (r.cell o).logicalType := by
  unfold singletonSuper?
  rw [h]

theorem singletonSuper?_of_module (h : r.denotes? o = some t)
    (module_ : (r.record t).kind = .moduleType) :
    r.singletonSuper? o = some Core.moduleType := by
  unfold singletonSuper?
  rw [h]
  dsimp only
  rw [module_]

theorem singletonSuper?_of_root (h : r.denotes? o = some t)
    (class_ : (r.record t).kind = .classType) (root : (r.record t).superclass = none) :
    r.singletonSuper? o = some Core.classType := by
  unfold singletonSuper?
  rw [h]
  dsimp only
  rw [class_, root]

theorem singletonSuper?_of_class {parent : TypeId} (h : r.denotes? o = some t)
    (class_ : (r.record t).kind = .classType) (super : (r.record t).superclass = some parent) :
    r.singletonSuper? o = (r.cell (r.record parent).object).singleton := by
  unfold singletonSuper?
  rw [h]
  dsimp only
  rw [class_, super]

end singletonSuper?

/-- What an object asks for, once it is there, it asks for ever after. -/
theorem singletonSuper?_mono (wf : r.WellFormed) (grows : Grows r r') {o : ObjectId}
    (holds : r.Holds o) {u : TypeId} (h : r.singletonSuper? o = some u) :
    r'.singletonSuper? o = some u := by
  have hdenotes : r'.denotes? o = r.denotes? o := by
    unfold denotes?
    rw [(grows.header holds).payload_eq]
  cases hd : r.denotes? o with
  | none =>
      rw [singletonSuper?_of_object hd] at h
      rw [singletonSuper?_of_object (hdenotes.trans hd), (grows.header holds).logicalType_eq]
      exact h
  | some t =>
      have hsame := grows.identity (wf.denotes_object hd).1
      cases hkind : (r.record t).kind with
      | moduleType =>
          rw [singletonSuper?_of_module hd hkind] at h
          rw [singletonSuper?_of_module (hdenotes.trans hd) (hsame.kind_eq.trans hkind)]
          exact h
      | classType =>
          cases hsuper : (r.record t).superclass with
          | none =>
              rw [singletonSuper?_of_root hd hkind hsuper] at h
              rw [singletonSuper?_of_root (hdenotes.trans hd) (hsame.kind_eq.trans hkind)
                (hsame.superclass_eq.trans hsuper)]
              exact h
          | some parent =>
              rw [singletonSuper?_of_class hd hkind hsuper] at h
              rw [singletonSuper?_of_class (hdenotes.trans hd) (hsame.kind_eq.trans hkind)
                (hsame.superclass_eq.trans hsuper),
                (grows.identity (wf.superclass_some hsuper).2.1).object_eq]
              exact grows.singleton_some h

/-- What an object asks for is there. -/
theorem has_of_singletonSuper? (wf : r.WellFormed) {o : ObjectId} (holds : r.Holds o)
    {u : TypeId} (h : r.singletonSuper? o = some u) : r.Has u := by
  unfold singletonSuper? at h
  split at h
  · cases h
    exact wf.logical_has holds
  · split at h
    · cases h
      exact (wf.metatype_class .moduleType).1
    · cases h
      exact (wf.metatype_class .classType).1
    · exact (wf.singleton_class h).1

-- =============================================== edits that make no singleton

/-- No singleton type is made, taken off or named. -/
structure SameSingletons (r r' : Registry) : Prop where
  attached_eq : ∀ s : TypeId, (r'.record s).attached = (r.record s).attached
  singleton_eq : ∀ o : ObjectId, (r'.cell o).singleton = (r.cell o).singleton
  name_eq : ∀ {o : ObjectId} {s : TypeId}, (r.record s).attached = some o →
    (r'.record s).name = (r.record s).name

namespace SameSingletons

theorem refl (r : Registry) : SameSingletons r r := ⟨fun _ => rfl, fun _ => rfl, fun _ => rfl⟩

theorem trans {a b c : Registry} (hab : SameSingletons a b) (hbc : SameSingletons b c) :
    SameSingletons a c where
  attached_eq s := (hbc.attached_eq s).trans (hab.attached_eq s)
  singleton_eq o := (hbc.singleton_eq o).trans (hab.singleton_eq o)
  name_eq {_} {s} h := (hbc.name_eq ((hab.attached_eq s).trans h)).trans (hab.name_eq h)

/-- A change that keeps the attachment of all types and the names of singleton
types. -/
theorem modifyType (r : Registry) (t : TypeId) {change : TypeRecord → TypeRecord}
    (attached : ∀ x, (change x).attached = x.attached)
    (name : (r.record t).attached ≠ none → (change (r.record t)).name = (r.record t).name) :
    SameSingletons r (r.modifyType t change) where
  attached_eq := record_modifyType_kept r TypeRecord.attached attached
  singleton_eq _ := rfl
  name_eq {o} {s} h := by
    rw [record_modifyType]
    split
    · next hs =>
      obtain ⟨rfl, -⟩ := hs
      refine name ?_
      rw [h]
      exact Option.some_ne_none o
    · rfl

theorem allocType (r : Registry) (kind : TypeKind) (logicalType : TypeId)
    (superclass : Option TypeId) (shape : Shape) :
    SameSingletons r (r.allocType kind logicalType superclass shape).2 where
  attached_eq := attached_allocType r kind logicalType superclass shape
  singleton_eq := singleton_allocType r kind logicalType superclass shape
  name_eq h := by rw [record_allocType_of_ne r (ne_of_has r (has_of_attached h))]

theorem allocObject (r : Registry) (t : TypeId) (payload : Payload) :
    SameSingletons r (r.allocObject t payload).2 where
  attached_eq _ := rfl
  singleton_eq o := by
    by_cases ho : o = ⟨r.heap.length⟩
    · rw [ho, cell_allocObject_new, cell_of_not_holds r (o := ⟨r.heap.length⟩) (Nat.lt_irrefl _)]
      rfl
    · rw [cell_allocObject_of_ne r ho]
  name_eq _ := rfl

theorem bind (r : Registry) (owner : TypeId) (name : String) (value : Value) :
    SameSingletons r (r.bind owner name value) :=
  modifyType r owner (fun _ => rfl) fun _ => rfl

/-- A type that is no singleton is bound to a constant. -/
theorem adopt {t : TypeId} (free : (r.record t).attached = none) (parent : TypeId)
    (name : String) : SameSingletons r (r.adopt t parent name) := by
  unfold Registry.adopt
  refine (modifyType r t (fun x => ?_) fun h => absurd free h).trans (bind _ parent name _)
  split
  · rfl
  · rfl

/-- Binding a singleton type to a constant does not name it. -/
theorem setConstant (r : Registry) (owner : TypeId) (name : String) (value : Value) :
    SameSingletons r (r.setConstant owner name value) := by
  unfold Registry.setConstant
  split
  · next t _ =>
    split
    · next h =>
      rw [Bool.and_eq_true_iff, Option.isNone_iff_eq_none, Option.isNone_iff_eq_none] at h
      exact adopt h.2 owner name
    · exact bind r owner name value
  · exact bind r owner name value

/-- A new type gets its name before it could be attached to anything. -/
theorem allocType_adopt (r : Registry) (kind : TypeKind) (logicalType : TypeId)
    (superclass : Option TypeId) (shape : Shape) (parent : TypeId) (name : String) :
    SameSingletons r
      ((r.allocType kind logicalType superclass shape).2.adopt ⟨r.size⟩ parent name) := by
  refine (allocType r kind logicalType superclass shape).trans (adopt ?_ parent name)
  rw [record_allocType_new]

theorem defineAnonymousClass {superclass : TypeId} {shape : Option Shape} {t : TypeId}
    (h : r.defineAnonymousClass superclass shape = (.ok t, r')) : SameSingletons r r' := by
  obtain ⟨-, hmade⟩ := defineAnonymousClass_inv h
  cases hmade
  exact allocType r _ _ _ _

theorem defineClassUnder {parent : TypeId} {superclass : Option TypeId} {name : String}
    {shape : Option Shape} {t : TypeId}
    (h : r.defineClassUnder parent superclass name shape = (.ok t, r')) : SameSingletons r r' := by
  rcases defineClassUnder_inv h with ⟨rfl, -⟩ | ⟨s, made, -, -, hmade, rfl⟩
  · exact refl _
  · obtain ⟨-, halloc⟩ := defineAnonymousClass_inv hmade
    cases halloc
    exact allocType_adopt r _ _ _ _ parent name

theorem defineModuleUnder {parent : TypeId} {name : String} {t : TypeId}
    (h : r.defineModuleUnder parent name = (.ok t, r')) : SameSingletons r r' := by
  rcases defineModuleUnder_inv h with ⟨rfl, -⟩ | ⟨made, -, hmade, rfl⟩
  · exact refl _
  · cases hmade
    exact allocType_adopt r _ _ _ _ parent name

theorem includeModule {target m : TypeId} (h : r.includeModule target m = (.ok (), r')) :
    SameSingletons r r' := by
  obtain ⟨-, -, -, rfl⟩ := includeModule_inv h
  have hmodified : SameSingletons r (r.modifyType target fun t =>
      { t with includes := m :: t.includes.filter (· ≠ m) }) :=
    modifyType r target (fun _ => rfl) fun _ => rfl
  exact ⟨hmodified.attached_eq, hmodified.singleton_eq, hmodified.name_eq⟩

theorem defineMethod (r : Registry) (owner : TypeId) (name : String) (arity : Arity)
    (body : Body) : SameSingletons r (r.defineMethod owner name arity body) := by
  have hmodified : SameSingletons r (r.modifyType owner fun t =>
      { t with methods := t.methods.set name ⟨name, owner, arity, body⟩ }) :=
    modifyType r owner (fun _ => rfl) fun _ => rfl
  exact ⟨hmodified.attached_eq, hmodified.singleton_eq, hmodified.name_eq⟩

/-- Operations other than a request for a singleton type make none. -/
theorem apply {op : Operation} (other : ∀ o, op ≠ .makeSingleton o) :
    SameSingletons r (op.apply r) := by
  cases op with
  | defineClass parent superclass name shape =>
      exact (looks_defineClassUnder ..).keeps (refl r) fun h => defineClassUnder h
  | defineAnonymousClass superclass shape =>
      exact (looks_defineAnonymousClass ..).keeps (refl r) fun h => defineAnonymousClass h
  | defineModule parent name =>
      exact (looks_defineModuleUnder ..).keeps (refl r) fun h => defineModuleUnder h
  | mixIn target m => exact (looks_includeModule ..).keeps (refl r) fun h => includeModule h
  | setConstant owner name value => exact setConstant r owner name value
  | defineMethod owner name arity body => exact defineMethod r owner name arity body
  | makeSingleton o => exact absurd rfl (other o)
  | defineShape name fields => exact ⟨fun _ => rfl, fun _ => rfl, fun _ => rfl⟩
  | makeObject cls text => exact allocObject r cls _

end SameSingletons

-- ================================================================ the invariant

/-- What a type is called in messages depends on names, on kinds, and on the
objects that types are attached to. -/
theorem displayName_eq_of_same
    (same : ∀ u : TypeId, (r'.record u).name = (r.record u).name
      ∧ (r'.record u).attached = (r.record u).attached
      ∧ (r'.record u).kind = (r.record u).kind)
    (cell : ∀ (u : TypeId) (o : ObjectId), (r.record u).attached = some o →
      r'.cell o = r.cell o) (u : TypeId) : r'.displayName u = r.displayName u := by
  have hwithin : ∀ (fuel : Nat) (u : TypeId),
      r'.displayWithin fuel u = r.displayWithin fuel u := by
    intro fuel
    induction fuel with
    | zero =>
        intro u
        unfold displayWithin placeName
        rw [(same u).2.2]
    | succ fuel ih =>
        intro u
        obtain ⟨hname, hattached, hkind⟩ := same u
        unfold displayWithin placeName
        rw [hname, hattached, hkind]
        split
        · rfl
        · split
          · rfl
          · next o ho =>
            unfold denotes?
            rw [cell u o ho]
            split
            · rw [ih]
            · rw [ih]
  exact hwithin _ u

namespace Mirrored

/-- A singleton type's object is there. -/
theorem holds (mirrored : r.Mirrored) {o : ObjectId} {s : TypeId}
    (h : (r.record s).attached = some o) : r.Holds o :=
  holds_of_singleton (mirrored.singleton_iff.mpr h)

/-- A new object changes the name of no type: singleton types are named after
objects that were there. -/
theorem displayName_allocObject (mirrored : r.Mirrored) (t : TypeId) (payload : Payload)
    (u : TypeId) : (r.allocObject t payload).2.displayName u = r.displayName u := by
  refine displayName_eq_of_same (fun v => ?_) (fun _ o ho => ?_) u
  · exact ⟨rfl, rfl, rfl⟩
  · exact cell_allocObject_of_ne r (ne_of_holds r (mirrored.holds ho))

/-- The superclass of a singleton type stays the mirrored one. -/
theorem superclass_mono (wf : r.WellFormed) (mirrored : r.Mirrored) (grows : Grows r r')
    {o : ObjectId} {s : TypeId} (h : (r.record s).attached = some o) :
    ∃ u, r'.singletonSuper? o = some u ∧ (r'.record s).superclass = some u := by
  obtain ⟨u, hasked, hsuper⟩ := mirrored.superclass_some h
  refine ⟨u, singletonSuper?_mono wf grows (mirrored.holds h) hasked, ?_⟩
  rw [(grows.identity (has_of_attached h)).superclass_eq]
  exact hsuper

theorem of_sameSingletons (wf : r.WellFormed) (mirrored : r.Mirrored) (grows : Grows r r')
    (same : SameSingletons r r') : r'.Mirrored where
  singleton_iff {o s} := by
    rw [same.singleton_eq, same.attached_eq]
    exact mirrored.singleton_iff
  nameless {o s} h := by
    rw [same.attached_eq] at h
    rw [same.name_eq h]
    exact mirrored.nameless h
  superclass_some {o s} h := by
    rw [same.attached_eq] at h
    exact mirrored.superclass_mono wf grows h

/-- A singleton type is further down than the type that its object was made from,
for it is below that type, or below the singleton type of the object of a type
further up. -/
theorem chainRank_lt (wf : r.WellFormed) (mirrored : r.Mirrored) {o : ObjectId} {s : TypeId}
    (h : (r.cell o).singleton = some s) : chainRank (r.cell o).logicalType < chainRank s := by
  obtain ⟨u, asked, super⟩ := mirrored.superclass_some (mirrored.singleton_iff.mp h)
  obtain ⟨-, -, hlt⟩ := wf.superclass_some super
  unfold singletonSuper? at asked
  split at asked
  · cases asked
    exact hlt
  · next t hd =>
    obtain ⟨has, hobject⟩ := wf.denotes_object hd
    rw [← hobject, wf.object_logical has]
    split at asked
    · next module_ =>
      cases asked
      rw [module_]
      exact hlt
    · next class_ _ =>
      cases asked
      rw [class_]
      exact hlt
    · next parent class_ hparent =>
      obtain ⟨-, hasParent, -⟩ := wf.superclass_some hparent
      have habove := chainRank_lt wf mirrored asked
      rw [wf.object_logical hasParent] at habove
      rw [class_]
      have hmeta : chainRank TypeKind.classType.metatype
          ≤ chainRank (r.record parent).kind.metatype + 1 := by
        cases (r.record parent).kind <;> decide
      omega
termination_by chainRank s

/-- A new singleton type below the superclass that its object asks for. -/
theorem attachSingleton (wf : r.WellFormed) (mirrored : r.Mirrored) {o : ObjectId}
    (holds : r.Holds o) (free : (r.cell o).singleton = none) {u : TypeId}
    (asked : r.singletonSuper? o = some u) : (r.attachSingleton o u).2.Mirrored := by
  have hgrows : Grows r (r.attachSingleton o u).2 := Grows.attachSingleton free
  have hnew := record_attachSingleton_new r o u
  have hself : ((r.attachSingleton o u).2.cell o).singleton = some ⟨r.size⟩ :=
    singleton_attachSingleton_self r holds
  have hfresh : ∀ {p : ObjectId}, (r.cell p).singleton ≠ some ⟨r.size⟩ := by
    intro p h
    exact Nat.lt_irrefl _ (wf.singleton_class h).1
  refine { singleton_iff := ?_, nameless := ?_, superclass_some := ?_ }
  · intro p s
    by_cases hp : p = o
    · subst hp
      rw [hself, Option.some_inj]
      constructor
      · intro h
        rw [← h, hnew]
      · intro h
        by_cases hs : s = ⟨r.size⟩
        · exact hs.symm
        · rw [record_attachSingleton_of_ne r hs, ← mirrored.singleton_iff, free] at h
          cases h
    · rw [singleton_attachSingleton_of_ne r u hp]
      by_cases hs : s = ⟨r.size⟩
      · rw [hs, hnew, Option.some_inj]
        exact ⟨fun h => absurd h hfresh, fun h => absurd h.symm hp⟩
      · rw [record_attachSingleton_of_ne r hs]
        exact mirrored.singleton_iff
  · intro p s h
    by_cases hs : s = ⟨r.size⟩
    · rw [hs, hnew]
    · rw [record_attachSingleton_of_ne r hs] at h ⊢
      exact mirrored.nameless h
  · intro p s h
    by_cases hs : s = ⟨r.size⟩
    · subst hs
      rw [hnew] at h ⊢
      obtain rfl := Option.some_inj.mp h
      exact ⟨u, singletonSuper?_mono wf hgrows holds asked, rfl⟩
    · rw [record_attachSingleton_of_ne r hs] at h
      exact mirrored.superclass_mono wf hgrows h

end Mirrored

end ObjectModel.Registry
