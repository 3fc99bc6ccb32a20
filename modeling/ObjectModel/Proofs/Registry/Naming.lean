/-
How types get their names.

A type is made without a name. It gets its name and its lexical parent together
when it is first bound to a constant, and only then: `Names` says all that one
operation does to names and constants, provided that it binds no constant that
is bound (`Operation.ValidAnew`). Over a run, names and lexical parents stay as
they are once given (`KeepsNames`), so a type with a lexical parent owes both to
one operation of the run (`exists_adoption`).

What was read there is the name of the lexical parent at that moment. A type
whose parent got a name only later goes on without the parent's name.
-/
import ObjectModel.Proofs.Registry.Growth
import ObjectModel.Proofs.Registry.Paths

namespace ObjectModel

/-- What an operation calls by a name can be part of a path, and it binds no
constant that is bound. A definition never does: under a bound name it reopens
what is there, or is refused. -/
def Operation.BindsAnew (r : Registry) : Operation → Prop
  | .defineClass _ _ name _ | .defineModule _ name => PlainName name
  | .setConstant owner name _ => PlainName name ∧ r.constant? owner name = none
  | _ => True

instance (r : Registry) (op : Operation) : Decidable (op.BindsAnew r) :=
  match op with
  | .defineClass _ _ name _ | .defineModule _ name =>
    inferInstanceAs (Decidable (PlainName name))
  | .setConstant owner name _ =>
    inferInstanceAs (Decidable (PlainName name ∧ r.constant? owner name = none))
  | .defineAnonymousClass _ _ | .mixIn _ _ | .defineMethod _ _ _ _ | .makeSingleton _
  | .defineShape _ _ | .makeObject _ _ => .isTrue trivial

/-- A valid operation that binds no constant again. -/
def Operation.ValidAnew (r : Registry) (op : Operation) : Prop := op.Valid r ∧ op.BindsAnew r

instance (r : Registry) (op : Operation) : Decidable (op.ValidAnew r) :=
  inferInstanceAs (Decidable (_ ∧ _))

/-- What a type's record says about names. -/
def TypeRecord.naming (x : TypeRecord) : Option String × Option TypeId × Bindings Value :=
  (x.name, x.lexicalParent, x.constants)

namespace Registry

variable {r r' : Registry} {t p : TypeId} {name : String} {v : Value}

-- ================================================ edits that concern no name

/-- All records say the same about names. -/
def SameNames (r r' : Registry) : Prop := ∀ t, (r'.record t).naming = (r.record t).naming

namespace SameNames

theorem trans {a b c : Registry} (hab : SameNames a b) (hbc : SameNames b c) : SameNames a c :=
  fun t => (hbc t).trans (hab t)

theorem modifyType (r : Registry) (t : TypeId) {change : TypeRecord → TypeRecord}
    (kept : ∀ x, (change x).naming = x.naming) : SameNames r (r.modifyType t change) :=
  record_modifyType_kept r TypeRecord.naming kept

/-- A new type has nothing that a blank record has not. -/
theorem allocType (r : Registry) (kind : TypeKind) (logicalType : TypeId)
    (superclass : Option TypeId) (shape : Shape) :
    SameNames r (r.allocType kind logicalType superclass shape).2 :=
  record_allocType_kept r TypeRecord.naming rfl

theorem attachSingleton (r : Registry) (o : ObjectId) (superclass : TypeId) :
    SameNames r (r.attachSingleton o superclass).2 := by
  have hmade := allocType r .classType Core.classType (some superclass)
    (r.record superclass).shape
  rw [attachSingleton_eq]
  exact hmade.trans (modifyType _ ⟨r.size⟩ fun _ => rfl)

/-- No singleton type on the way up has a name. -/
theorem singletonWithin (fuel : Nat) (r : Registry) (o : ObjectId) :
    SameNames r (Registry.singletonWithin fuel r o).2 :=
  singletonWithin_keeps (fun o s same => same.trans (attachSingleton _ o s)) fuel o fun _ => rfl

theorem includeModule {target m : TypeId} (h : r.includeModule target m = (.ok (), r')) :
    SameNames r r' := by
  obtain ⟨-, -, -, rfl⟩ := includeModule_inv h
  exact modifyType r target fun _ => rfl

variable (same : SameNames r r')

include same

theorem name_eq (t : TypeId) : (r'.record t).name = (r.record t).name :=
  congrArg (·.1) (same t)

theorem lexicalParent_eq (t : TypeId) :
    (r'.record t).lexicalParent = (r.record t).lexicalParent :=
  congrArg (·.2.1) (same t)

theorem constant?_eq (t : TypeId) (name : String) : r'.constant? t name = r.constant? t name :=
  congrArg (·.2.2.get? name) (same t)

theorem qualify_eq (t : TypeId) (name : String) : r'.qualify t name = r.qualify t name := by
  unfold qualify
  rw [same.name_eq]

end SameNames

-- ========================================================== one more constant

theorem name_bind (r : Registry) (owner : TypeId) (name : String) (v : Value) (t : TypeId) :
    ((r.bind owner name v).record t).name = (r.record t).name := by
  refine record_modifyType_kept r TypeRecord.name ?_ t
  exact fun _ => rfl

theorem lexicalParent_bind (r : Registry) (owner : TypeId) (name : String) (v : Value)
    (t : TypeId) : ((r.bind owner name v).record t).lexicalParent = (r.record t).lexicalParent := by
  refine record_modifyType_kept r TypeRecord.lexicalParent ?_ t
  exact fun _ => rfl

theorem constant?_bind_self (has : r.Has p) (name : String) (v : Value) :
    (r.bind p name v).constant? p name = some v := by
  unfold bind constant?
  rw [record_modifyType, if_pos ⟨rfl, has⟩]
  exact Bindings.get?_set_self _ name v

/-- A constant that is bound stays when a free one is bound. -/
theorem constant?_bind_of_bound {owner : TypeId} {name' : String} {v' : Value}
    (free : r.constant? owner name = none) (bound : r.constant? t name' = some v') :
    (r.bind owner name v).constant? t name' = some v' := by
  unfold bind constant?
  rw [record_modifyType]
  split
  · next h =>
    obtain ⟨rfl, -⟩ := h
    have hne : name' ≠ name := by
      rintro rfl
      rw [free] at bound
      cases bound
    rw [← bound]
    exact Bindings.get?_set_of_ne hne _ v
  · exact bound

-- ================================================================ one more name

/-- Gives a type a name and a lexical parent, if it has no name. -/
def giveName (r : Registry) (t parent : TypeId) (qualified : String) : Registry :=
  r.modifyType t fun type =>
    if type.name.isNone then { type with name := some qualified, lexicalParent := some parent }
    else type

/-- To adopt a type is to give it its name, then to bind the constant. -/
theorem adopt_eq (r : Registry) (t parent : TypeId) (name : String) :
    r.adopt t parent name
      = (r.giveName t parent (r.qualify parent name)).bind parent name (r.typeValue t) := rfl

theorem qualify_bare (bare : p = Core.object ∨ (r.record p).name = none) (name : String) :
    r.qualify p name = name := by
  unfold qualify
  split
  · next outer houter =>
    rcases bare with rfl | hnone
    · rfl
    · rw [hnone] at houter
      cases houter
  · rfl

theorem qualify_nested {outer : String} (ne : p ≠ Core.object)
    (named : (r.record p).name = some outer) (name : String) :
    r.qualify p name = outer ++ "::" ++ name := by
  unfold qualify
  rw [named]
  exact if_neg ne

section giveName

variable {parent u : TypeId} {qualified : String}

theorem record_giveName_self (has : r.Has t) (nameless : (r.record t).name = none) :
    (r.giveName t parent qualified).record t
      = { r.record t with name := some qualified, lexicalParent := some parent } := by
  unfold giveName
  rw [record_modifyType, if_pos ⟨rfl, has⟩, if_pos (by rw [nameless]; rfl)]

theorem record_giveName_of_ne (ne : u ≠ t) :
    (r.giveName t parent qualified).record u = r.record u := by
  unfold giveName
  rw [record_modifyType, if_neg fun h => ne h.1]

theorem constant?_giveName : (r.giveName t parent qualified).constant? u name
    = r.constant? u name := by
  have hkept : ((r.giveName t parent qualified).record u).constants = (r.record u).constants := by
    refine record_modifyType_kept r TypeRecord.constants (fun x => ?_) u
    split
    · rfl
    · rfl
  unfold constant?
  rw [hkept]

theorem has_giveName : (r.giveName t parent qualified).Has u ↔ r.Has u := by
  unfold Has giveName
  rw [size_modifyType]

end giveName

-- ============================================================== one operation

/-- A type without a name takes that of a constant. -/
structure Adopted (r r' : Registry) (t parent : TypeId) (name : String) : Prop where
  nameless : (r.record t).name = none
  plain : PlainName name
  name_eq : (r'.record t).name = some (r.qualify parent name)
  lexicalParent_eq : (r'.record t).lexicalParent = some parent
  bound : r'.constant? parent name = some (r'.typeValue t)

/-- What an operation does to names: bound constants stay, and a type keeps its
name and its lexical parent or is given both. -/
structure Names (r r' : Registry) : Prop where
  bound : ∀ {t : TypeId} {name : String} {v : Value}, r.constant? t name = some v →
    r'.constant? t name = some v
  named : ∀ t : TypeId,
    ((r'.record t).name = (r.record t).name
      ∧ (r'.record t).lexicalParent = (r.record t).lexicalParent)
    ∨ ∃ parent name, Adopted r r' t parent name

namespace Names

theorem of_same (same : SameNames r r') : Names r r' where
  bound h := (same.constant?_eq _ _).trans h
  named t := .inl ⟨same.name_eq t, same.lexicalParent_eq t⟩

theorem refl (r : Registry) : Names r r := .of_same fun _ => rfl

/-- Edits that concern no name may come first. -/
theorem after_same {r₁ : Registry} (same : SameNames r r₁) (names : Names r₁ r') :
    Names r r' where
  bound h := names.bound ((same.constant?_eq _ _).trans h)
  named t := by
    rcases names.named t with ⟨hname, hparent⟩ | ⟨parent, name, adopted⟩
    · exact .inl ⟨hname.trans (same.name_eq t), hparent.trans (same.lexicalParent_eq t)⟩
    · exact .inr ⟨parent, name,
        { adopted with
          nameless := (same.name_eq t).symm.trans adopted.nameless
          name_eq := by rw [adopted.name_eq, same.qualify_eq] }⟩

theorem bind {owner : TypeId} (free : r.constant? owner name = none) (v : Value) :
    Names r (r.bind owner name v) where
  bound h := constant?_bind_of_bound free h
  named t := .inl ⟨name_bind r owner name v t, lexicalParent_bind r owner name v t⟩

/-- A type without a name is bound to a free constant. -/
theorem adopt (has : r.Has t) (hasParent : r.Has p) (nameless : (r.record t).name = none)
    (plain : PlainName name) (free : r.constant? p name = none) :
    Names r (r.adopt t p name) where
  bound h := by
    rw [← constant?_giveName] at h free
    exact constant?_bind_of_bound free h
  named u := by
    rw [adopt_eq, name_bind, lexicalParent_bind]
    by_cases hu : u = t
    · subst hu
      refine .inr ⟨p, name, nameless, plain, ?_, ?_, ?_⟩
      · rw [name_bind, record_giveName_self has nameless]
      · rw [lexicalParent_bind, record_giveName_self has nameless]
      · have hobject := ((Grows.adopt r u p name).identity has).object_eq
        rw [constant?_bind_self (has_giveName.mpr hasParent)]
        exact congrArg (some ∘ Value.object) hobject.symm
    · rw [record_giveName_of_ne hu]
      exact .inl ⟨rfl, rfl⟩

theorem setConstant (wf : r.WellFormed) {owner : TypeId} (has : r.Has owner)
    (plain : PlainName name) (free : r.constant? owner name = none) (v : Value) :
    Names r (r.setConstant owner name v) := by
  unfold Registry.setConstant
  split
  · next t ht =>
    split
    · next fresh =>
      rw [Bool.and_eq_true, Option.isNone_iff_eq_none] at fresh
      exact adopt (wf.has_of_typeOf? ht) has fresh.1 plain free
    · exact bind free v
  · exact bind free v

/-- A new type is bound to a free constant. -/
theorem allocType_adopt (kind : TypeKind) (logicalType : TypeId) (superclass : Option TypeId)
    (shape : Shape) (has : r.Has p) (plain : PlainName name) (free : r.constant? p name = none) :
    Names r ((r.allocType kind logicalType superclass shape).2.adopt ⟨r.size⟩ p name) := by
  have same := SameNames.allocType r kind logicalType superclass shape
  refine after_same same (adopt ?_ ?_ ?_ plain ?_)
  · exact (has_allocType r).mpr (.inr rfl)
  · exact (has_allocType r).mpr (.inl has)
  · rw [record_allocType_new]
  · exact (same.constant?_eq p name).trans free

theorem defineClassUnder {superclass : Option TypeId} {shape : Option Shape} (has : r.Has p)
    (plain : PlainName name) (h : r.defineClassUnder p superclass name shape = (.ok t, r')) :
    Names r r' := by
  rcases defineClassUnder_inv h with ⟨rfl, -⟩ | ⟨s, made, -, free, hmade, rfl⟩
  · exact refl _
  · obtain ⟨-, halloc⟩ := defineAnonymousClass_inv hmade
    cases halloc
    exact allocType_adopt _ _ _ _ has plain free

theorem defineModuleUnder (has : r.Has p) (plain : PlainName name)
    (h : r.defineModuleUnder p name = (.ok t, r')) : Names r r' := by
  rcases defineModuleUnder_inv h with ⟨rfl, -⟩ | ⟨made, free, hmade, rfl⟩
  · exact refl _
  · cases hmade
    exact allocType_adopt _ _ _ _ has plain free

theorem apply (wf : r.WellFormed) {op : Operation} (valid : op.ValidAnew r) :
    Names r (op.apply r) := by
  obtain ⟨valid, anew⟩ := valid
  cases op with
  | defineClass parent superclass name shape =>
      exact (looks_defineClassUnder ..).keeps (refl r) fun h => defineClassUnder valid.1 anew h
  | defineAnonymousClass superclass shape =>
      refine (looks_defineAnonymousClass ..).keeps (refl r) fun h => ?_
      obtain ⟨-, halloc⟩ := defineAnonymousClass_inv h
      cases halloc
      exact of_same (.allocType r _ _ _ _)
  | defineModule parent name =>
      exact (looks_defineModuleUnder ..).keeps (refl r) fun h => defineModuleUnder valid anew h
  | mixIn target m =>
      exact (looks_includeModule ..).keeps (refl r) fun h => of_same (.includeModule h)
  | setConstant owner name value => exact setConstant wf valid.1 anew.1 anew.2 value
  | defineMethod owner name arity body => exact of_same (.modifyType r owner fun _ => rfl)
  | makeSingleton o => exact of_same (.singletonWithin _ r o)
  | defineShape name fields => exact of_same fun _ => rfl
  | makeObject cls text => exact of_same fun _ => rfl

end Names

-- ======================================================================== runs

/-- Names, lexical parents and constants are as they were where there were any. -/
structure KeepsNames (r r' : Registry) : Prop where
  grows : Grows r r'
  bound : ∀ {t : TypeId} {name : String} {v : Value}, r.constant? t name = some v →
    r'.constant? t name = some v
  named : ∀ {t : TypeId} {name : String}, (r.record t).name = some name →
    (r'.record t).name = some name ∧ (r'.record t).lexicalParent = (r.record t).lexicalParent

namespace KeepsNames

theorem refl (r : Registry) : KeepsNames r r := ⟨.refl r, fun h => h, fun h => ⟨h, rfl⟩⟩

theorem trans {a b c : Registry} (hab : KeepsNames a b) (hbc : KeepsNames b c) :
    KeepsNames a c where
  grows := hab.grows.trans hbc.grows
  bound h := hbc.bound (hab.bound h)
  named h := by
    obtain ⟨hname, hparent⟩ := hab.named h
    obtain ⟨hname', hparent'⟩ := hbc.named hname
    exact ⟨hname', hparent'.trans hparent⟩

theorem apply (wf : r.WellFormed) {op : Operation} (valid : op.ValidAnew r) :
    KeepsNames r (op.apply r) where
  grows := .apply wf op
  bound h := (Names.apply wf valid).bound h
  named {t name} h := by
    rcases (Names.apply wf valid).named t with ⟨hname, hparent⟩ | ⟨parent, name', adopted⟩
    · exact ⟨hname.trans h, hparent⟩
    · -- only what has no name is adopted
      rw [adopted.nameless] at h
      cases h

theorem run {ops : List Operation} (wf : r.WellFormed)
    (along : Along Operation.ValidAnew r ops) : KeepsNames r (r.run ops) := by
  induction ops generalizing r with
  | nil => exact refl r
  | cons op ops ih =>
      exact (apply wf along.1).trans (ih (wf.apply along.1.1) along.2)

/-- A constant that stands for a type goes on standing for it. -/
theorem bound_type (keeps : KeepsNames r r') (has : r.Has t)
    (bound : r.constant? p name = some (r.typeValue t)) :
    r'.constant? p name = some (r'.typeValue t) := by
  have hvalue : r'.typeValue t = r.typeValue t :=
    congrArg Value.object (keeps.grows.identity has).object_eq
  rw [hvalue]
  exact keeps.bound bound

end KeepsNames

/-- A type with a lexical parent that had none at the start of a run was adopted
by an operation of the run. -/
theorem exists_adoption {ops : List Operation} (wf : r.WellFormed)
    (along : Along Operation.ValidAnew r ops) (orphan : (r.record t).lexicalParent = none)
    (parent : ((r.run ops).record t).lexicalParent = some p) :
    ∃ before op name, before ++ [op] <+: ops
      ∧ Adopted (r.run before) (r.run (before ++ [op])) t p name := by
  induction ops generalizing r with
  | nil =>
      rw [show r.run [] = r from rfl, orphan] at parent
      cases parent
  | cons op ops ih =>
      have hwf := wf.apply along.1.1
      rcases (Names.apply wf along.1).named t with ⟨-, hparent⟩ | ⟨parent', name, adopted⟩
      · obtain ⟨before, op', name, hpart, hadopted⟩ :=
          ih hwf along.2 (hparent.trans orphan) parent
        exact ⟨op :: before, op', name, List.cons_prefix_cons.mpr ⟨rfl, hpart⟩, hadopted⟩
      · -- the lexical parent of the adoption is that of the end
        have hkept := ((KeepsNames.run hwf along.2).named adopted.name_eq).2
        have heq := parent.symm.trans (hkept.trans adopted.lexicalParent_eq)
        cases heq
        exact ⟨[], op, name, List.cons_prefix_cons.mpr ⟨rfl, List.nil_prefix⟩, adopted⟩

end Registry

end ObjectModel
