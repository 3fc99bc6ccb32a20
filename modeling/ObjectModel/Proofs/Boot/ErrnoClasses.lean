/-
One class for every error number.

The configured names are defined one after the other. A name with a new number
gets a class, any other a constant for the class that the number has. What the
table knows and what the registry holds are two invariants of this, since they
are about different things: `Listed` says which names and numbers are in the
table after some entries, `Registered` that the registry has a class for each
row and a constant for each name. Every entry keeps both, and none is refused:
the names are distinct, and the module of the error numbers starts out without
constants.
-/
import ObjectModel.Proofs.Boot.Configuration
import ObjectModel.Proofs.Boot.Start
import ObjectModel.Proofs.Registry.NewClass

namespace ObjectModel

open Registry

namespace ErrnoTable

-- ==================================================================== the table

/-- A table with one more name for a class. -/
def withName (t : ErrnoTable) (name : String) (cls : TypeId) : ErrnoTable :=
  { t with classes := t.classes.set name cls }

/-- A table with one more number. -/
def withRow (t : ErrnoTable) (row : ErrnoRow) : ErrnoTable :=
  { rows := t.rows ++ [row], classes := t.classes.set row.name row.cls }

/-- What a table knows once some entries are defined. -/
structure Listed (entries : List (String × Fixnum)) (t : ErrnoTable) : Prop where
  /-- A number is known by the first of its names. -/
  nameOf?_eq : ∀ number, t.nameOf? number = (entries.find? (·.2 = number)).map (·.1)
  class?_of_mem : ∀ {name number}, (name, number) ∈ entries →
    t.class? name = (t.row? number).map (·.cls)
  class?_of_not_mem : ∀ {name}, name ∉ entries.map (·.1) → t.class? name = none
  numbers_nodup : (t.rows.map (·.number)).Nodup

theorem listed_empty : Listed [] empty where
  nameOf?_eq _ := rfl
  class?_of_mem mem := by cases mem
  class?_of_not_mem _ := rfl
  numbers_nodup := List.nodup_nil

section

variable {entries : List (String × Fixnum)} {t : ErrnoTable} {name : String} {number : Fixnum}

theorem row?_withRow (t : ErrnoTable) (row : ErrnoRow) (n : Fixnum) :
    (t.withRow row).row? n = (t.row? n).or (if row.number = n then some row else none) := by
  unfold row? withRow
  rw [List.find?_append]
  congr 1
  by_cases h : row.number = n
  · rw [if_pos h, List.find?_cons_of_pos (by simpa using h)]
  · rw [if_neg h, List.find?_cons_of_neg (by simpa using h)]
    rfl

/-- The first name of a number, with one entry more. -/
theorem firstName_concat (n : Fixnum) :
    ((entries ++ [(name, number)]).find? (·.2 = n)).map (·.1)
      = ((entries.find? (·.2 = n)).map (·.1)).or (if number = n then some name else none) := by
  rw [List.find?_append, Option.map_or]
  congr 1
  by_cases h : number = n
  · rw [if_pos h, List.find?_cons_of_pos (by simpa using h)]
    rfl
  · rw [if_neg h, List.find?_cons_of_neg (by simpa using h)]
    rfl

/-- A number that some entry has is known. -/
theorem Listed.row?_isSome (listed : Listed entries t) (mem : (name, number) ∈ entries) :
    (t.row? number).isSome := by
  have hname := listed.nameOf?_eq number
  cases hrow : t.row? number with
  | some row => rfl
  | none =>
      unfold nameOf? at hname
      rw [hrow] at hname
      have hnone := List.find?_eq_none.mp (Option.map_eq_none_iff.mp hname.symm) _ mem
      simp at hnone

variable (listed : Listed entries t) (fresh : name ∉ entries.map (·.1))

include listed fresh

/-- A name of a known number. -/
theorem Listed.withName {row : ErrnoRow} (known : t.row? number = some row) :
    Listed (entries ++ [(name, number)]) (t.withName name row.cls) where
  nameOf?_eq n := by
    rw [firstName_concat, ← listed.nameOf?_eq]
    by_cases h : number = n
    · subst h
      unfold nameOf?
      rw [known]
      exact congrArg (Option.map (·.name)) known
    · rw [if_neg h, Option.or_none]
      rfl
  class?_of_mem {other n} mem := by
    rcases List.mem_append.mp mem with hold | hnew
    · have hne : other ≠ name := by
        rintro rfl
        exact fresh (List.mem_map_of_mem (f := (·.1)) hold)
      exact (Bindings.get?_set_of_ne hne _ _).trans (listed.class?_of_mem hold)
    · cases List.mem_singleton.mp hnew
      refine (Bindings.get?_set_self _ _ _).trans ?_
      exact congrArg (Option.map (·.cls)) known.symm
  class?_of_not_mem {other} notMem := by
    rw [List.map_append, List.mem_append, not_or, List.map_singleton, List.mem_singleton] at notMem
    exact (Bindings.get?_set_of_ne notMem.2 _ _).trans (listed.class?_of_not_mem notMem.1)
  numbers_nodup := listed.numbers_nodup

/-- A name of a new number. -/
theorem Listed.withRow (unknown : t.row? number = none) (cls : TypeId) :
    Listed (entries ++ [(name, number)]) (t.withRow ⟨number, name, cls⟩) where
  nameOf?_eq n := by
    unfold nameOf?
    rw [row?_withRow, firstName_concat, Option.map_or]
    congr 1
    · exact listed.nameOf?_eq n
    · split
      · rfl
      · rfl
  class?_of_mem {other n} mem := by
    rw [row?_withRow]
    rcases List.mem_append.mp mem with hold | hnew
    · have hne : other ≠ name := by
        rintro rfl
        exact fresh (List.mem_map_of_mem (f := (·.1)) hold)
      obtain ⟨row, hrow⟩ := Option.isSome_iff_exists.mp (listed.row?_isSome hold)
      have hclass := listed.class?_of_mem hold
      rw [hrow] at hclass ⊢
      exact (Bindings.get?_set_of_ne hne _ _).trans hclass
    · cases List.mem_singleton.mp hnew
      rw [unknown, if_pos rfl]
      exact Bindings.get?_set_self _ _ _
  class?_of_not_mem {other} notMem := by
    rw [List.map_append, List.mem_append, not_or, List.map_singleton, List.mem_singleton] at notMem
    exact (Bindings.get?_set_of_ne notMem.2 _ _).trans (listed.class?_of_not_mem notMem.1)
  numbers_nodup := by
    refine (List.map_append ..).symm ▸ List.nodup_append.mpr
      ⟨listed.numbers_nodup, List.nodup_singleton number, ?_⟩
    intro n mem _ hnew
    rw [List.mem_singleton.mp hnew]
    rintro rfl
    obtain ⟨row, hrow, rfl⟩ := List.mem_map.mp mem
    have hnone := List.find?_eq_none.mp unknown row hrow
    simp at hnone

end

-- ================================================================ the registry

/-- The class of a row. -/
structure ErrnoClass (r : Registry) (row : ErrnoRow) : Prop where
  class_kind : (r.record row.cls).kind = .classType
  superclass : (r.record row.cls).superclass = some Core.systemCallError
  name : (r.record row.cls).name = some ("Errno::" ++ row.name)
  number : r.constant? row.cls "Errno" = some (.fixnum row.number)

/-- What a registry holds for a table that was defined from `base` on. -/
structure Registered (base : Registry) (t : ErrnoTable) (r : Registry) : Prop where
  sound : Sound (t, r)
  grows : Grows base r
  size_eq : r.size = base.size + t.rows.length
  places : ∀ {i : Nat} {row : ErrnoRow}, t.rows[i]? = some row → row.cls = ⟨base.size + i⟩
  classes : ∀ row ∈ t.rows, ErrnoClass r row
  module_name : (r.record Core.errno).name = some "Errno"
  class_has : ∀ {name : String} {cls : TypeId}, t.class? name = some cls → r.Has cls
  constants : ∀ name, r.constant? Core.errno name = (t.class? name).map r.typeValue

/-- A registry in which the error numbers can be defined. -/
structure Ready (base : Registry) : Prop where
  launched : base.Launched
  module_name : (base.record Core.errno).name = some "Errno"
  no_constants : ∀ name, base.constant? Core.errno name = none
  superclass_kind : (base.record Core.systemCallError).kind = .classType
  no_subclass : ∀ u, (base.record u).superclass ≠ some Core.systemCallError
  no_singleton : ∀ o, (base.cell o).singleton = none

theorem Ready.registered {base : Registry} (ready : Ready base) : Registered base empty base where
  sound := { launched := ready.launched, has := by intro row mem; cases mem }
  grows := .refl base
  size_eq := rfl
  places h := by cases h
  classes row mem := by cases mem
  module_name := ready.module_name
  class_has h := by cases h
  constants := ready.no_constants

/-- A class is what its record says. -/
theorem ErrnoClass.of_record {r r' : Registry} {row : ErrnoRow} (class_ : ErrnoClass r row)
    (same : r'.record row.cls = r.record row.cls) : ErrnoClass r' row where
  class_kind := by rw [same]; exact class_.class_kind
  superclass := by rw [same]; exact class_.superclass
  name := by rw [same]; exact class_.name
  number := by
    unfold constant?
    rw [same]
    exact class_.number

/-- The module of the error numbers got a constant for a class, and no other type
that was there was touched. -/
structure Binds (r r' : Registry) (name : String) (cls : TypeId) : Prop where
  grows : Grows r r'
  has : r'.Has cls
  module_name : (r'.record Core.errno).name = (r.record Core.errno).name
  constant?_eq : ∀ other, r'.constant? Core.errno other
    = if other = name then some (r'.typeValue cls) else r.constant? Core.errno other
  record_other : ∀ {u}, r.Has u → u ≠ Core.errno → r'.record u = r.record u

namespace Registered

variable {base r r' : Registry} {t : ErrnoTable} {name : String}
  (registered : Registered base t r)

include registered

/-- The class of a row was not there before. -/
theorem not_has_base {row : ErrnoRow} (mem : row ∈ t.rows) : ¬ base.Has row.cls := by
  obtain ⟨i, hi⟩ := List.mem_iff_getElem?.mp mem
  rw [registered.places hi]
  exact Nat.not_lt_of_le (Nat.le_add_right _ _)

/-- What the constants of the module come to with one more. -/
theorem constants_of_binds {cls : TypeId} (binds : Binds r r' name cls) (other : String) :
    r'.constant? Core.errno other
      = ((t.classes.set name cls).get? other).map r'.typeValue := by
  rw [binds.constant?_eq]
  by_cases hother : other = name
  · subst hother
    rw [if_pos rfl, Bindings.get?_set_self]
    rfl
  · rw [if_neg hother, Bindings.get?_set_of_ne hother, registered.constants other]
    change (t.class? other).map _ = (t.class? other).map _
    cases hclass : t.class? other with
    | none => rfl
    | some old =>
        have hobject := (binds.grows.identity (registered.class_has hclass)).object_eq
        exact congrArg (some ∘ Value.object) hobject.symm

theorem class_has_of_binds {cls : TypeId} (binds : Binds r r' name cls) {other : String}
    {found : TypeId} (h : (t.classes.set name cls).get? other = some found) : r'.Has found := by
  by_cases hother : other = name
  · subst hother
    rw [Bindings.get?_set_self] at h
    cases h
    exact binds.has
  · rw [Bindings.get?_set_of_ne hother] at h
    exact binds.grows.has (registered.class_has h)

theorem classes_of_binds (ready : Ready base) {cls : TypeId} (binds : Binds r r' name cls)
    {row : ErrnoRow} (mem : row ∈ t.rows) : ErrnoClass r' row :=
  (registered.classes row mem).of_record (binds.record_other (registered.sound.has row mem)
    fun h => registered.not_has_base mem (h ▸ ready.launched.equipped.has_core (by decide)))

-- =================================================================== one entry

/-- A constant of the module for the class of a row. -/
theorem binds_withName {row : ErrnoRow} (mem : row ∈ t.rows) (name : String) :
    Binds r (r.setConstant Core.errno name (r.typeValue row.cls)) name row.cls
      ∧ (r.setConstant Core.errno name (r.typeValue row.cls)).size = r.size := by
  have has : r.Has row.cls := registered.sound.has row mem
  have herrno : r.Has Core.errno := registered.sound.launched.equipped.has_core (by decide)
  have hgrows : Grows r (r.setConstant Core.errno name (r.typeValue row.cls)) :=
    .setConstant r Core.errno name _
  have hbind : r.setConstant Core.errno name (r.typeValue row.cls)
      = r.bind Core.errno name (r.typeValue row.cls) := by
    refine setConstant_eq_bind fun u hu => ?_
    have hdenotes := registered.sound.launched.equipped.wellFormed.object_denotes has
    rw [show r.typeOf? (r.typeValue row.cls) = some row.cls from hdenotes] at hu
    cases hu
    rw [(registered.classes row mem).name]
    exact Option.some_ne_none _
  rw [hbind] at hgrows ⊢
  have hself := record_bind_self herrno name (r.typeValue row.cls)
  refine ⟨⟨hgrows, hgrows.has has, by rw [hself], fun other => ?_, fun _ ne => ?_⟩, ?_⟩
  · unfold constant?
    rw [hself]
    split
    · next h =>
      subst h
      refine (Bindings.get?_set_self _ _ _).trans ?_
      exact congrArg (some ∘ Value.object) (hgrows.identity has).object_eq.symm
    · next h => exact Bindings.get?_set_of_ne h _ _
  · exact record_bind_of_ne ne name _
  · exact size_modifyType r Core.errno _

/-- A name of a known number becomes a constant. -/
theorem withName (ready : Ready base) {row : ErrnoRow} {number : Fixnum}
    (known : t.row? number = some row) (name : String) :
    ∃ r', add (t, r) (name, number) = .ok (t.withName name row.cls, r')
      ∧ Registered base (t.withName name row.cls) r' := by
  obtain ⟨binds, hsize⟩ := registered.binds_withName (List.mem_of_find?_eq_some known) name
  have hadd : add (t, r) (name, number) = .ok (t.withName name row.cls,
      r.setConstant Core.errno name (r.typeValue row.cls)) := by
    unfold add
    dsimp only
    rw [known]
    rfl
  exact ⟨_, hadd,
    { sound := sound_add registered.sound hadd
      grows := registered.grows.trans binds.grows
      size_eq := hsize.trans registered.size_eq
      places := registered.places
      classes := fun row' mem' => registered.classes_of_binds ready binds mem'
      module_name := binds.module_name.trans registered.module_name
      class_has := registered.class_has_of_binds binds
      constants := registered.constants_of_binds binds }⟩

/-- A class of the module for a new number: it is made, and its number becomes a
constant of its own. -/
theorem exists_classBound (ready : Ready base) (number : Fixnum) (free : t.class? name = none) :
    ∃ r₁, r.defineClassUnder Core.errno (some Core.systemCallError) name none
        = (.ok ⟨r.size⟩, r₁)
      ∧ Binds r (r₁.setConstant ⟨r.size⟩ "Errno" (.fixnum number)) name ⟨r.size⟩
      ∧ ErrnoClass (r₁.setConstant ⟨r.size⟩ "Errno" (.fixnum number)) ⟨number, name, ⟨r.size⟩⟩
      ∧ (r₁.setConstant ⟨r.size⟩ "Errno" (.fixnum number)).size = r.size + 1 := by
  have herrno : r.Has Core.errno := registered.sound.launched.equipped.has_core (by decide)
  have hsuper : base.Has Core.systemCallError := ready.launched.equipped.has_core (by decide)
  have hkind : (r.record Core.systemCallError).kind = .classType :=
    (registered.grows.identity hsuper).kind_eq.trans ready.superclass_kind
  have hname : r.constant? Core.errno name = none :=
    (registered.constants name).trans (congrArg (Option.map r.typeValue) free)
  obtain ⟨r₁, hdefine, made⟩ : ∃ r₁, r.defineClassUnder Core.errno (some Core.systemCallError) name
      none = (.ok ⟨r.size⟩, r₁) ∧ ClassMade r r₁ Core.errno Core.systemCallError name
        (r.record Core.systemCallError).shape := exists_classMade herrno hkind hname
  have hgrows : Grows r (r₁.setConstant ⟨r.size⟩ "Errno" (.fixnum number)) :=
    (Grows.defineClassUnder hdefine).trans (.setConstant r₁ _ "Errno" _)
  refine ⟨r₁, hdefine, ?_⟩
  rw [setConstant_eq_bind fun _ h => by cases h] at hgrows ⊢
  have hnew : r₁.Has ⟨r.size⟩ := by
    unfold Has
    rw [made.size_eq]
    exact Nat.lt_succ_self _
  have hsize : (r₁.bind ⟨r.size⟩ "Errno" (.fixnum number)).size = r.size + 1 :=
    (size_modifyType r₁ ⟨r.size⟩ _).trans made.size_eq
  have hself := record_bind_self hnew "Errno" (.fixnum number)
  have hother : ∀ {u}, u ≠ ⟨r.size⟩ →
      (r₁.bind ⟨r.size⟩ "Errno" (.fixnum number)).record u = r₁.record u :=
    fun ne => record_bind_of_ne ne "Errno" _
  have hmodule := (hother (ne_of_has r herrno)).trans made.record_parent
  rw [made.record_new] at hself
  generalize r₁.bind ⟨r.size⟩ "Errno" (.fixnum number) = r' at *
  refine ⟨⟨hgrows, ?_, by rw [hmodule], fun other => ?_, fun has ne => ?_⟩, ?_, hsize⟩
  · unfold Has
    rw [hsize]
    exact Nat.lt_succ_self _
  · unfold constant? typeValue
    rw [hmodule, hself]
    split
    · next h =>
      subst h
      exact Bindings.get?_set_self _ _ _
    · next h => exact Bindings.get?_set_of_ne h _ _
  · exact (hother (ne_of_has r has)).trans (made.record_other ne (ne_of_has r has))
  · have hqualified : r.qualify Core.errno name = "Errno::" ++ name :=
      qualify_nested (by decide) registered.module_name name
    refine ⟨by rw [hself], by rw [hself], by rw [hself, hqualified], ?_⟩
    unfold constant?
    rw [hself]
    exact Bindings.get?_set_self _ _ _

/-- A name of a new number becomes a class. -/
theorem withRow (ready : Ready base) {number : Fixnum} (unknown : t.row? number = none)
    (free : t.class? name = none) :
    ∃ r', add (t, r) (name, number) = .ok (t.withRow ⟨number, name, ⟨r.size⟩⟩, r')
      ∧ Registered base (t.withRow ⟨number, name, ⟨r.size⟩⟩) r' := by
  obtain ⟨r₁, hdefine, binds, hclass, hsize⟩ := registered.exists_classBound ready number free
  have hadd : add (t, r) (name, number) = .ok (t.withRow ⟨number, name, ⟨r.size⟩⟩,
      r₁.setConstant ⟨r.size⟩ "Errno" (.fixnum number)) := by
    unfold add
    dsimp only
    rw [unknown, hdefine]
    rfl
  have hsound := sound_add registered.sound hadd
  generalize r₁.setConstant ⟨r.size⟩ "Errno" (.fixnum number) = r' at *
  refine ⟨_, hadd,
    { sound := hsound
      grows := registered.grows.trans binds.grows
      size_eq := ?_
      places := ?_
      classes := ?_
      module_name := binds.module_name.trans registered.module_name
      class_has := registered.class_has_of_binds binds
      constants := registered.constants_of_binds binds }⟩
  · change r'.size = base.size + (t.rows ++ [_]).length
    rw [hsize, registered.size_eq, List.length_append, List.length_singleton, Nat.add_assoc]
  · intro i row h
    rcases getElem?_concat_cases h with hold | ⟨rfl, rfl⟩
    · exact registered.places hold
    · exact congrArg TypeId.mk registered.size_eq
  · intro row mem
    rcases List.mem_append.mp mem with hold | hnew
    · exact registered.classes_of_binds ready binds hold
    · rw [List.mem_singleton.mp hnew]
      exact hclass

end Registered

-- ================================================================= all entries

/-- Entries with distinct names are defined one after the other. The induction
is on the entries that are left. -/
theorem exists_foldlM_add {base : Registry} (ready : Ready base) :
    ∀ (rest done : List (String × Fixnum)) {t : ErrnoTable} {r : Registry},
      ((done ++ rest).map (·.1)).Nodup → Listed done t → Registered base t r →
      ∃ t' r', rest.foldlM add (t, r) = .ok (t', r') ∧ Listed (done ++ rest) t'
        ∧ Registered base t' r' := by
  intro rest
  induction rest with
  | nil =>
      intro done t r _ listed registered
      rw [List.append_nil]
      exact ⟨t, r, rfl, listed, registered⟩
  | cons e rest ih =>
      intro done t r nodup listed registered
      obtain ⟨name, number⟩ := e
      have hfresh : name ∉ done.map (·.1) := by
        intro mem
        rw [List.map_append] at nodup
        exact (List.nodup_append.mp nodup).2.2 name mem name List.mem_cons_self rfl
      have hstep : ∃ t₁ r₁, add (t, r) (name, number) = .ok (t₁, r₁)
          ∧ Listed (done ++ [(name, number)]) t₁ ∧ Registered base t₁ r₁ := by
        cases hrow : t.row? number with
        | some row =>
            obtain ⟨r₁, hadd, hregistered⟩ := registered.withName ready hrow name
            exact ⟨_, r₁, hadd, listed.withName hfresh hrow, hregistered⟩
        | none =>
            obtain ⟨r₁, hadd, hregistered⟩ := registered.withRow ready hrow
              (listed.class?_of_not_mem hfresh)
            exact ⟨_, r₁, hadd, listed.withRow hfresh hrow _, hregistered⟩
      obtain ⟨t₁, r₁, hadd, hlisted, hregistered⟩ := hstep
      rw [List.foldlM_cons, hadd]
      have hrest := ih (done ++ [(name, number)]) (by simpa using nodup) hlisted hregistered
      rw [List.append_assoc, List.singleton_append] at hrest
      exact hrest

/-- The classes of a configuration can always be defined. -/
theorem exists_define {base : Registry} (ready : Ready base) {config : NativeConfiguration}
    (nodup : config.keys.Nodup) :
    ∃ t r, define base config = .ok (t, r) ∧ Listed (order config) t ∧ Registered base t r :=
  exists_foldlM_add ready (order config) [] (nodup_order config nodup) listed_empty ready.registered

end ErrnoTable

end ObjectModel
