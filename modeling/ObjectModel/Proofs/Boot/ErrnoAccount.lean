/-
What a started machine knows about the error numbers of its host.

The core types leave the module of the error numbers empty and the class above
theirs without subclasses, so the classes of a configuration can be defined
(`exists_bootRegistry`). What a start does after that binds constants of three
core types and names the main object; the classes and the module are spared,
and no other class comes to stand below theirs (`Spares`). So a start never
fails over the error numbers, and its machine can be asked for all of them
(`errno_account_of_start`).
-/
import ObjectModel.Proofs.Boot.ErrnoClasses
import ObjectModel.Proofs.Boot.Tables
import ObjectModel.Proofs.Registry.Descent
import ObjectModel.Proofs.Registry.MethodDefinition

namespace ObjectModel

open Registry

-- ==================================================================== the core

/-- The core types leave a module without constants and a class without
subclasses, and no object with a singleton type. -/
theorem Core.errno_core : (Core.registry.toOption.any fun core =>
    decide (((installPrimitives core).record errno).name = some "Errno")
      && ((installPrimitives core).record errno).constants.entries.isEmpty
      && decide (((installPrimitives core).record systemCallError).kind = .classType)
      && decide (∀ x ∈ (installPrimitives core).types, x.superclass ≠ some systemCallError)
      && decide (∀ x ∈ (installPrimitives core).heap, x.singleton = none)) = true := by
  decide +kernel

/-- The error numbers can be defined in the registry of the core types. -/
theorem ErrnoTable.exists_ready :
    ∃ core, Core.registry = .ok core ∧ Ready (Core.installPrimitives core) := by
  have hcore := Core.errno_core
  cases hregistry : Core.registry with
  | error e =>
      rw [hregistry] at hcore
      cases hcore
  | ok core =>
      rw [hregistry] at hcore
      dsimp only [Except.toOption, Option.any] at hcore
      simp only [Bool.and_eq_true, decide_eq_true_eq, List.isEmpty_iff] at hcore
      obtain ⟨⟨⟨⟨hname, hempty⟩, hkind⟩, hsuper⟩, hfree⟩ := hcore
      refine ⟨core, rfl,
        { launched := Core.launched_installPrimitives (Core.launched_registry hregistry)
          module_name := hname
          no_constants := fun name => ?_
          superclass_kind := hkind
          no_subclass := fun u => ?_
          no_singleton := fun o => ?_ }⟩
      · unfold constant? Bindings.get?
        rw [hempty]
        rfl
      · by_cases has : (Core.installPrimitives core).Has u
        · unfold record
          rw [List.getD_eq_getElem?_getD, List.getElem?_eq_getElem has, Option.getD_some]
          exact hsuper _ (List.getElem_mem has)
        · rw [record_of_not_has _ has]
          exact nofun
      · by_cases holds : (Core.installPrimitives core).Holds o
        · unfold cell
          rw [List.getD_eq_getElem?_getD, List.getElem?_eq_getElem holds, Option.getD_some]
          exact hfree _ (List.getElem_mem holds)
        · rw [cell_of_not_holds _ holds]
          rfl

namespace Machine

/-- The registry of a machine can be made for every configuration. -/
theorem exists_bootRegistry {config : NativeConfiguration} (nodup : config.keys.Nodup) :
    ∃ base t r, bootRegistry config = .ok (t, r) ∧ ErrnoTable.Ready base
      ∧ ErrnoTable.Listed (ErrnoTable.order config) t ∧ ErrnoTable.Registered base t r := by
  obtain ⟨core, hcore, ready⟩ := ErrnoTable.exists_ready
  obtain ⟨t, r, hdefine, listed, registered⟩ := ErrnoTable.exists_define ready nodup
  refine ⟨_, t, r, ?_, ready, listed, registered⟩
  have hfree : ∀ o, (r.cell o).singleton = none := fun o =>
    ((ErrnoTable.sameSingletons_define hdefine).singleton_eq o).trans (ready.no_singleton o)
  have hverify : r.verify = .ok () :=
    registered.sound.launched.reachable.verify_eq_ok_of_none hfree
  unfold bootRegistry
  rw [hcore]
  change (ErrnoTable.define _ config >>= _) = _
  rw [hdefine]
  change (r.verify >>= _) = _
  rw [hverify]
  rfl

end Machine

-- ============================================================ the rest of a start

section

variable {base r r' : Registry} {m m' : Machine}

/-- The value of a type denotes it for ever. -/
theorem Registry.WellFormed.typeOf?_typeValue (wf : r.WellFormed) (grows : Grows r r')
    {t : TypeId} (has : r.Has t) : r'.typeOf? (r'.typeValue t) = some t := by
  unfold typeOf? typeValue
  rw [(grows.identity has).object_eq]
  exact (grows.denotes?_eq (wf.object_holds has)).trans (wf.object_denotes has)

/-- A constant touches its owner, and the type that takes its name. -/
theorem Registry.record_setConstant_of_ne {owner u : TypeId} {v : Value} (ne : u ≠ owner)
    (other : r.typeOf? v ≠ some u) (name : String) :
    (r.setConstant owner name v).record u = r.record u := by
  unfold setConstant
  split
  · next t ht =>
    have hne : u ≠ t := by
      rintro rfl
      exact other ht
    split
    · rw [adopt_eq, record_bind_of_ne ne, record_giveName_of_ne hne]
    · exact record_bind_of_ne ne name v
  · exact record_bind_of_ne ne name v

namespace Machine

/-- Constants leave the error numbers alone. -/
theorem errno_withConstants (m : Machine) : m.withConstants.errno = m.errno := by
  have hconstant : ∀ (a : Machine) (owner : TypeId) (name : String) (v : Value),
      (a.setConstant owner name v).errno = a.errno := fun _ _ _ _ => rfl
  have htext : ∀ (a : Machine) (name text : String),
      (a.setTextConstant name text).errno = a.errno := fun _ _ _ => rfl
  unfold withConstants
  rw [hconstant, hconstant, htext, hconstant, htext, htext]

/-- The types that a start binds constants in. -/
def constantOwners : List TypeId := [Core.object, Core.basicObject, Core.truffle]

/-- The types of a registry are spared, but for those that constants are bound
in, and no type that came later stands below the system call error. -/
structure Spares (base : Registry) (m : Machine) : Prop extends MainNewer base m where
  main_class : (m.registry.cell m.mainObject).logicalType = Core.object
  undefined_holds : m.registry.Holds m.undefinedObject
  undefined_plain : m.registry.denotes? m.undefinedObject = none
  record_eq : ∀ {u}, base.Has u → u ∉ constantOwners → m.registry.record u = base.record u
  superclass_new : ∀ {u}, ¬ base.Has u →
    (m.registry.record u).superclass ≠ some Core.systemCallError

namespace Spares

variable (spares : Spares base m)

include spares

/-- What growth keeps of the machine's own two objects. -/
theorem of_grows (newer : MainNewer base m') (main : m'.mainObject = m.mainObject)
    (undefined : m'.undefinedObject = m.undefinedObject) (grows : Grows m.registry m'.registry)
    (records : ∀ {u}, base.Has u → u ∉ constantOwners →
      m'.registry.record u = m.registry.record u)
    (supers : ∀ {u}, ¬ base.Has u →
      (m'.registry.record u).superclass ≠ some Core.systemCallError) : Spares base m' where
  toMainNewer := newer
  main_class := by
    rw [main, (grows.header spares.holds).logicalType_eq]
    exact spares.main_class
  undefined_holds := by
    rw [undefined]
    exact grows.holds spares.undefined_holds
  undefined_plain := by
    rw [undefined, grows.denotes?_eq spares.undefined_holds]
    exact spares.undefined_plain
  record_eq has notMem := (records has notMem).trans (spares.record_eq has notMem)
  superclass_new := supers

/-- A constant of one of the owners, for what is no type or is one of them. -/
theorem setConstant {owner : TypeId} {v : Value} (mem : owner ∈ constantOwners)
    (known : ∀ t, m.registry.typeOf? v = some t → t ∈ constantOwners) (name : String) :
    Spares base (m.setConstant owner name v) := by
  refine spares.of_grows (spares.toMainNewer.setConstant owner name v) rfl rfl
    (.setConstant m.registry owner name v) (fun has notMem => ?_) fun notHas h => ?_
  · refine record_setConstant_of_ne ?_ (fun h => notMem (known _ h)) name
    rintro rfl
    exact notMem mem
  · have hplace := (sameGraph_setConstant m.registry owner name v).place
    exact spares.superclass_new notHas ((hplace _).superclass_eq.symm.trans h)

theorem setTextConstant (name text : String) : Spares base (m.setTextConstant name text) := by
  have hmade : Spares base (m.newString text).2 :=
    spares.of_grows
      (spares.toMainNewer.of_sameSingletons rfl
        ((Keeps.refl m.registry).allocObject Core.string (.text text))
        (.allocObject m.registry Core.string (.text text)))
      rfl rfl (.allocObject m.registry Core.string (.text text)) (fun _ _ => rfl)
      spares.superclass_new
  refine hmade.setConstant (by decide) (fun t ht => ?_) name
  -- a string stands for no type
  have hcell := cell_allocObject_new m.registry Core.string (.text text)
  unfold typeOf? at ht
  change denotes? _ ⟨m.registry.heap.length⟩ = _ at ht
  unfold denotes? at ht
  rw [show (m.newString text).2.registry = (m.registry.allocObject Core.string (.text text)).2
    from rfl, hcell] at ht
  cases ht

/-- A method of the main object alone never fails to be defined. -/
theorem exists_defineSingletonMethod (name : String) (arity : Arity) (body : Body) :
    ∃ m', m.defineSingletonMethod (.object m.mainObject) name arity body = .ok m'
      ∧ Spares base m' ∧ m'.mainObject = m.mainObject ∧ m'.errno = m.errno := by
  have hdefine : m.defineSingletonMethod (.object m.mainObject) name arity body = .ok { m with
      registry := (m.registry.singletonOf m.mainObject).2.defineMethod
        (m.registry.singletonOf m.mainObject).1 name arity body } := rfl
  have hmade : Grows m.registry (m.registry.singletonOf m.mainObject).2
      ∧ ¬ base.Has (m.registry.singletonOf m.mainObject).1
      ∧ (∀ {u}, base.Has u →
          (m.registry.singletonOf m.mainObject).2.record u = m.registry.record u)
      ∧ ∀ {u}, ¬ base.Has u → ((m.registry.singletonOf m.mainObject).2.record u).superclass
          ≠ some Core.systemCallError := by
    cases hs : (m.registry.cell m.mainObject).singleton with
    | some s =>
        rw [singletonOf_of_some hs]
        exact ⟨.refl _, spares.newer hs, fun _ => rfl, spares.superclass_new⟩
    | none =>
        rw [singletonOf_of_plain hs spares.plain, spares.main_class]
        refine ⟨.attachSingleton hs, Nat.not_lt_of_le spares.keeps.grows.size_le,
          fun has => ?_, fun {u} notHas => ?_⟩
        · exact record_attachSingleton_of_ne _ (ne_of_has _ (spares.keeps.grows.has has))
        · by_cases hu : u = ⟨m.registry.size⟩
          · rw [hu, record_attachSingleton_new]
            exact fun h => absurd (Option.some.inj h) (by decide)
          · rw [record_attachSingleton_of_ne _ hu]
            exact spares.superclass_new notHas
  obtain ⟨hgrows, hnew, hrecords, hsupers⟩ := hmade
  refine ⟨_, hdefine, ?_, rfl, rfl⟩
  refine spares.of_grows (spares.toMainNewer.defineSingletonMethod hdefine) rfl rfl
    (hgrows.trans (.defineMethod _ _ name arity body)) (fun has _ => ?_) fun notHas h => ?_
  · refine (record_defineMethod _ _ _ _ _ _).trans ?_
    refine (if_neg ?_).trans (hrecords has)
    rintro ⟨rfl, -⟩
    exact hnew has
  · have hplace := (sameGraph_defineMethod (m.registry.singletonOf m.mainObject).2
      (m.registry.singletonOf m.mainObject).1 name arity body).place
    exact hsupers notHas ((hplace _).superclass_eq.symm.trans h)

/-- The constants of a start. -/
theorem withConstants (launched : base.Launched) : Spares base m.withConstants := by
  unfold Machine.withConstants
  extract_lets m₁ m₂ m₃ m₄ m₅
  have h₂ : Spares base m₂ := (spares.setTextConstant _ _).setTextConstant _ _
  clear_value m₂
  have h₃ : Spares base m₃ := h₂.setConstant (by decide) (fun t h => by cases h) _
  clear_value m₃
  have h₄ : Spares base m₄ := h₃.setTextConstant _ _
  clear_value m₄
  have h₅ : Spares base m₅ := by
    refine h₄.setConstant (by decide) (fun t h => ?_) _
    rw [launched.equipped.wellFormed.typeOf?_typeValue h₄.keeps.grows
      (launched.equipped.has_core (by decide))] at h
    cases h
    decide
  clear_value m₅
  refine h₅.setConstant (by decide) (fun t h => ?_) _
  cases h₅.undefined_plain.symm.trans h

/-- The rest of a start never fails. -/
theorem exists_withBootConstants (launched : base.Launched) :
    ∃ m', m.withBootConstants = .ok m' ∧ Spares base m' ∧ m'.errno = m.errno := by
  have hconstants := spares.withConstants launched
  obtain ⟨m₁, hfirst, spares₁, main₁, errno₁⟩ := hconstants.exists_defineSingletonMethod "to_s"
    (.exactly 0) (.primitive (.newText "main"))
  obtain ⟨m₂, hsecond, spares₂, -, errno₂⟩ := spares₁.exists_defineSingletonMethod "inspect"
    (.exactly 0) (.primitive (.newText "main"))
  refine ⟨m₂, ?_, spares₂, errno₂.trans (errno₁.trans (errno_withConstants m))⟩
  rw [main₁] at hsecond
  unfold withBootConstants
  extract_lets a₁ a₂ a₃ a₄ a₅ a₆ main name named
  have hnamed : named = .ok m₂ := by
    have hboth := congrArg (fun x : Except Raise Machine =>
      x >>= fun a => a.defineSingletonMethod main "inspect" (.exactly 0) name) hfirst
    exact hboth.trans hsecond
  rw [hnamed]

end Spares

/-- A machine that is made around a registry spares all its types. -/
theorem spares_around (o : Options) (path : String) (r : Registry) (errno : ErrnoTable)
    (patches : PatchFiles) : Spares r { around o path r with errno, patches } := by
  have hmain := cell_main_around o path r
  have hundefined : (around o path r).registry.cell (around o path r).undefinedObject
      = ⟨Core.object, none, (r.record Core.object).shape, .plain⟩ :=
    cell_allocObject_new (r.allocObject Core.object .plain).2 Core.object .plain
  obtain ⟨keeps, holds, plain, newer⟩ := mainNewer_around o path r
  exact
    { keeps, holds, plain, newer
      main_class := congrArg HeapObject.logicalType hmain
      undefined_holds := (holds_allocObject _).mpr (.inr rfl)
      undefined_plain := by
        unfold denotes?
        rw [show Registry.cell _ _ = _ from hundefined]
      record_eq := fun _ _ => rfl
      superclass_new := fun {u} notHas => by
        change (r.record u).superclass ≠ _
        rw [record_of_not_has r notHas]
        exact nofun }

/-- A start that has a path and a registry binds the constants. -/
theorem exists_start_eq {o : Options} {config : NativeConfiguration} {files : FileTree}
    {path : String} {errno : ErrnoTable} (hpath : o.resolvedLoadPath files = .ok path)
    (hboot : bootRegistry config = .ok (errno, r)) :
    ∃ patches, start o config files
      = withBootConstants { around o path r with errno, patches } := by
  unfold start
  rw [hpath]
  dsimp only
  rw [hboot]
  exact ⟨_, rfl⟩

end Machine

end

-- ================================================================== the account

/-- What a table knows of entries, and what a registry holds for it. -/
structure ErrnoAccount (entries : List (String × Fixnum)) (t : ErrnoTable) (r : Registry) :
    Prop where
  /-- There is a row for every number, and for every number one. -/
  mem_numbers : ∀ number, number ∈ t.rows.map (·.number) ↔ number ∈ entries.map (·.2)
  numbers_nodup : (t.rows.map (·.number)).Nodup
  classes_nodup : (t.rows.map (·.cls)).Nodup
  /-- The classes of the rows are the system call errors that there are. -/
  superclass_iff : ∀ u, (r.record u).superclass = some Core.systemCallError
    ↔ u ∈ t.rows.map (·.cls)
  classes : ∀ row ∈ t.rows, ErrnoTable.ErrnoClass r row
  nameOf?_eq : ∀ number, t.nameOf? number = ErrnoTable.canonicalName? entries number
  class?_isSome : ∀ name, (t.class? name).isSome ↔ name ∈ entries.map (·.1)
  class?_of_mem : ∀ {name number}, (name, number) ∈ entries →
    ∃ row ∈ t.rows, row.number = number ∧ t.class? name = some row.cls
  /-- Names have the same class if they have the same number. -/
  class?_eq_iff : ∀ {a b i j}, (a, i) ∈ entries → (b, j) ∈ entries →
    (t.class? a = t.class? b ↔ i = j)
  /-- Every name is a constant for its class. -/
  constant?_eq : ∀ name, r.constant? Core.errno name = (t.class? name).map r.typeValue

namespace ErrnoTable

variable {base r : Registry} {t : ErrnoTable} {entries : List (String × Fixnum)}

/-- The classes of the rows are the types from the base on. -/
theorem Registered.classes_eq (registered : Registered base t r) :
    t.rows.map (·.cls) = (List.range t.rows.length).map fun i => ⟨base.size + i⟩ := by
  refine List.ext_getElem? fun i => ?_
  rw [List.getElem?_map, List.getElem?_map]
  by_cases hi : i < t.rows.length
  · rw [List.getElem?_range hi, List.getElem?_eq_getElem hi]
    exact congrArg some (registered.places (List.getElem?_eq_getElem hi))
  · rw [List.getElem?_eq_none (Nat.le_of_not_lt hi), List.getElem?_eq_none (by simpa using hi)]
    rfl

theorem Registered.classes_nodup (registered : Registered base t r) :
    (t.rows.map (·.cls)).Nodup := by
  rw [registered.classes_eq]
  refine List.nodup_range.map fun i j h => ?_
  exact Nat.add_left_cancel (TypeId.mk.inj h)

/-- A row that is found has the number. -/
theorem mem_of_row? {number : Fixnum} {row : ErrnoRow} (h : t.row? number = some row) :
    row ∈ t.rows ∧ row.number = number :=
  ⟨List.mem_of_find?_eq_some h, by simpa using List.find?_some h⟩

namespace Listed

variable (listed : Listed entries t)

include listed

theorem mem_numbers (number : Fixnum) :
    number ∈ t.rows.map (·.number) ↔ number ∈ entries.map (·.2) := by
  constructor
  · intro mem
    obtain ⟨row, hrow, rfl⟩ := List.mem_map.mp mem
    have hfound : (t.row? row.number).isSome :=
      List.find?_isSome.mpr ⟨row, hrow, by simp⟩
    have hname := listed.nameOf?_eq row.number
    obtain ⟨found, hfound⟩ := Option.isSome_iff_exists.mp hfound
    unfold nameOf? at hname
    rw [hfound] at hname
    obtain ⟨e, he, -⟩ := Option.map_eq_some_iff.mp hname.symm
    exact List.mem_map.mpr ⟨e, List.mem_of_find?_eq_some he, by simpa using List.find?_some he⟩
  · intro mem
    obtain ⟨⟨name, n⟩, he, rfl⟩ := List.mem_map.mp mem
    obtain ⟨row, hrow⟩ := Option.isSome_iff_exists.mp (listed.row?_isSome he)
    exact List.mem_map.mpr ⟨row, mem_of_row? hrow⟩

theorem exists_row {name : String} {number : Fixnum} (mem : (name, number) ∈ entries) :
    ∃ row ∈ t.rows, row.number = number ∧ t.class? name = some row.cls := by
  obtain ⟨row, hrow⟩ := Option.isSome_iff_exists.mp (listed.row?_isSome mem)
  have hclass := listed.class?_of_mem mem
  rw [hrow] at hclass
  exact ⟨row, (mem_of_row? hrow).1, (mem_of_row? hrow).2, hclass⟩

theorem class?_isSome (name : String) :
    (t.class? name).isSome ↔ name ∈ entries.map (·.1) := by
  constructor
  · intro h
    by_contra notMem
    rw [listed.class?_of_not_mem notMem] at h
    cases h
  · intro mem
    obtain ⟨⟨_, number⟩, he, rfl⟩ := List.mem_map.mp mem
    obtain ⟨row, -, -, hclass⟩ := listed.exists_row he
    rw [hclass]
    rfl

/-- Rows with different classes have different numbers, and the names of a row
are the names of its number. -/
theorem class?_eq_iff (nodup : (t.rows.map (·.cls)).Nodup) {a b : String} {i j : Fixnum}
    (hi : (a, i) ∈ entries) (hj : (b, j) ∈ entries) : t.class? a = t.class? b ↔ i = j := by
  obtain ⟨x, hx, rfl, hclass⟩ := listed.exists_row hi
  obtain ⟨y, hy, rfl, hclass'⟩ := listed.exists_row hj
  rw [hclass, hclass', Option.some.injEq]
  constructor
  · intro h
    rw [List.inj_on_of_nodup_map nodup hx hy h]
  · intro h
    rw [List.inj_on_of_nodup_map listed.numbers_nodup hx hy h]

end Listed

/-- The classes of the rows are the system call errors that there are. -/
theorem Registered.superclass_iff {m : Machine} (ready : Ready base)
    (registered : Registered base t r) (spares : Machine.Spares r m)
    (classes : ∀ row ∈ t.rows, ErrnoClass m.registry row) (u : TypeId) :
    (m.registry.record u).superclass = some Core.systemCallError ↔ u ∈ t.rows.map (·.cls) := by
  constructor
  · intro h
    by_cases has : r.Has u
    · have hold : ¬ base.Has u := by
        intro hbase
        rw [(spares.keeps.grows.identity has).superclass_eq,
          (registered.grows.identity hbase).superclass_eq] at h
        exact ready.no_subclass u h
      have hle := Nat.le_of_not_lt hold
      have hlt : u.index < base.size + t.rows.length := registered.size_eq ▸ has
      rw [registered.classes_eq, List.mem_map]
      refine ⟨u.index - base.size, List.mem_range.mpr (by omega), ?_⟩
      rw [Nat.add_sub_cancel' hle]
    · exact absurd h (spares.superclass_new has)
  · intro mem
    obtain ⟨row, hrow, rfl⟩ := List.mem_map.mp mem
    exact (classes row hrow).superclass

/-- The classes of a configuration, in a machine that spares them. -/
theorem account_of_spares {config : NativeConfiguration} {m : Machine} (ready : Ready base)
    (listed : Listed (order config) t) (registered : Registered base t r)
    (spares : Machine.Spares r m) :
    ErrnoAccount (config.entriesUnder errnoSection) t m.registry := by
  have hmem : ∀ {e}, e ∈ config.entriesUnder errnoSection → e ∈ order config :=
    fun h => (perm_order config).mem_iff.mpr h
  have hcore : ∀ u ∈ Machine.constantOwners, base.Has u := fun u mem =>
    ready.launched.equipped.has_core
      ((by decide : ∀ u ∈ Machine.constantOwners, u.index ≤ Core.interopException.index) u mem)
  have hclasses : ∀ row ∈ t.rows, ErrnoClass m.registry row := fun row mem =>
    (registered.classes row mem).of_record (spares.record_eq (registered.sound.has row mem)
      fun h => registered.not_has_base mem (hcore _ h))
  exact
    { mem_numbers := fun number => by
        rw [listed.mem_numbers, ((perm_order config).map _).mem_iff]
      numbers_nodup := listed.numbers_nodup
      classes_nodup := registered.classes_nodup
      superclass_iff := registered.superclass_iff ready spares hclasses
      classes := hclasses
      nameOf?_eq := fun number => (listed.nameOf?_eq number).trans (find?_order config number)
      class?_isSome := fun name => by
        rw [listed.class?_isSome, ((perm_order config).map _).mem_iff]
      class?_of_mem := fun mem => listed.exists_row (hmem mem)
      class?_eq_iff := fun hi hj =>
        listed.class?_eq_iff registered.classes_nodup (hmem hi) (hmem hj)
      constant?_eq := fun name => by
        have herrno : r.Has Core.errno := registered.sound.launched.equipped.has_core (by decide)
        have hmodule : m.registry.record Core.errno = r.record Core.errno :=
          spares.record_eq herrno (by decide)
        unfold constant?
        rw [hmodule]
        refine (registered.constants name).trans ?_
        cases hclass : t.class? name with
        | none => rfl
        | some cls =>
            have hobject := (spares.keeps.grows.identity (registered.class_has hclass)).object_eq
            exact congrArg (some ∘ Value.object) hobject.symm }

end ErrnoTable

/-- A start makes a class for every error number that its configuration was
supplied with, and fails only over the path of its library. -/
theorem Machine.errno_account_of_start (inserts : List (String × Fixnum)) (o : Options)
    (files : FileTree) :
    NativeConfiguration.Supplied inserts (NativeConfiguration.supplied inserts)
      ∧ (NativeConfiguration.supplied inserts).SectionOf errnoSection
        ((NativeConfiguration.supplied inserts).entriesUnder errnoSection)
      ∧ ((∃ path e, o.resolvedLoadPath files = .error (path, e)
            ∧ start o (NativeConfiguration.supplied inserts) files = .error (.file path e))
        ∨ ∃ m, start o (NativeConfiguration.supplied inserts) files = .ok m
            ∧ ErrnoAccount
              ((NativeConfiguration.supplied inserts).entriesUnder errnoSection)
              m.errno m.registry) := by
  have hsupplied := NativeConfiguration.supplied_account inserts
  refine ⟨hsupplied, NativeConfiguration.sectionOf_entriesUnder hsupplied.nodup errnoSection, ?_⟩
  cases hpath : o.resolvedLoadPath files with
  | error failure =>
      obtain ⟨path, e⟩ := failure
      refine .inl ⟨path, e, rfl, ?_⟩
      unfold start
      rw [hpath]
  | ok path =>
      obtain ⟨base, t, r, hboot, ready, listed, registered⟩ :=
        exists_bootRegistry hsupplied.nodup
      obtain ⟨patches, hstart⟩ := exists_start_eq hpath hboot
      obtain ⟨m, hm, spares, herrno⟩ :=
        (spares_around o path r t patches).exists_withBootConstants registered.sound.launched
      refine .inr ⟨m, hstart.trans hm, ?_⟩
      rw [herrno]
      exact ErrnoTable.account_of_spares ready listed registered spares

end ObjectModel
