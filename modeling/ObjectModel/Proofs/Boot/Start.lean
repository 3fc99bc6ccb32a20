/-
A machine that has started is equipped.

A start defines the core types, mixes the core modules in, installs the
primitives, adds the classes of the error numbers and binds some constants.
All of these are valid operations, so the registry of a started machine is
reachable. That the core declarations speak of types that are there in their
turn is the only part that is computed; the error numbers are any that a host
may have, and need an invariant of their own: the class of every row is there.
-/
import ObjectModel.Boot.Start
import ObjectModel.Proofs.Machine.Evolution

namespace ObjectModel

open Registry

variable {r r' : Registry}

/-- A registry that valid operations lead to, with the core types in their
places. -/
structure Registry.Launched (r : Registry) : Prop where
  reachable : r.Reachable
  equipped : r.Equipped

theorem Registry.Launched.of_evolves (launched : r.Launched) (evolves : r.Evolves r') :
    r'.Launched :=
  ⟨launched.reachable.trans evolves, launched.equipped.of_evolves evolves⟩

-- =============================================================== failing steps

/-- What follows a step that may fail has a result only if the step has. -/
theorem exists_of_bind_eq_ok {ε α β : Type} {x : Except ε α} {f : α → Except ε β} {b : β}
    (h : (x >>= f) = .ok b) : ∃ a, x = .ok a ∧ f a = .ok b := by
  cases x with
  | error e => cases h
  | ok a => exact ⟨a, rfl, h⟩

/-- An invariant of every step is one of a fold that may fail. -/
theorem foldlM_keeps {ε α β : Type} {f : β → α → Except ε β} {P : β → Prop} : ∀ (l : List α)
    {b b' : β}, (∀ a ∈ l, ∀ {b b'}, P b → f b a = .ok b' → P b') → P b →
      l.foldlM f b = .ok b' → P b' := by
  intro l
  induction l with
  | nil =>
      intro b b' _ hb h
      cases h
      exact hb
  | cons a rest ih =>
      intro b b' step hb h
      rw [List.foldlM_cons] at h
      obtain ⟨b₁, hstep, hrest⟩ := exists_of_bind_eq_ok h
      exact ih (fun a mem => step a (List.mem_cons_of_mem _ mem))
        (step a List.mem_cons_self hb hstep) hrest

-- ================================================================ core types

namespace Core

/-- A declaration speaks of types that are there. -/
def Declaration.Valid (r : Registry) : Declaration → Prop
  | .newModule parent _ => r.Has parent
  | .newClass parent superclass _ _ => r.Has parent ∧ r.Has superclass

instance (r : Registry) (d : Declaration) : Decidable (d.Valid r) :=
  match d with
  | .newModule parent _ => inferInstanceAs (Decidable (r.Has parent))
  | .newClass _ _ _ _ => inferInstanceAs (Decidable (_ ∧ _))

/-- Declarations are valid in their turn, and what they lead to passes a test. -/
def leadsTo (final : Registry → Bool) : List Declaration → Registry → Bool
  | [], r => final r
  | d :: rest, r =>
    decide (d.Valid r) &&
      match d.define r with
      | .ok r' => leadsTo final rest r'
      | .error _ => true

theorem evolves_defineShape (r : Registry) (name : String) (fields : List String) :
    r.Evolves (defineShape r name fields).2 :=
  .single (.defineShape name fields) trivial

/-- A call that was accepted left the registry that goes on. -/
theorem exists_of_accepted {α : Type} {made : Except RegistryError α × Registry}
    (h : accepted made = .ok r') : ∃ x, made = (.ok x, r') := by
  obtain ⟨answer, r₁⟩ := made
  cases answer with
  | error e => cases h
  | ok x =>
      cases h
      exact ⟨x, rfl⟩

theorem evolves_define {d : Declaration} (valid : d.Valid r) (h : d.define r = .ok r') :
    r.Evolves r' := by
  unfold Declaration.define at h
  split at h
  · obtain ⟨t, hmade⟩ := exists_of_accepted h
    exact .of_defineModuleUnder valid hmade
  · obtain ⟨t, hmade⟩ := exists_of_accepted h
    exact .of_defineClassUnder valid.1 valid.2 hmade
  · next shapeName =>
    obtain ⟨t, hmade⟩ := exists_of_accepted h
    exact (evolves_defineShape r shapeName []).trans
      (.of_defineClassUnder valid.1 valid.2 hmade)

/-- What declarations lead to evolved, if all were valid in their turn. -/
theorem evolves_of_leadsTo {final : Registry → Bool} : ∀ (l : List Declaration)
    {r r' : Registry}, leadsTo final l r = true → l.foldlM (fun r d => d.define r) r = .ok r' →
      r.Evolves r' ∧ final r' = true := by
  intro l
  induction l with
  | nil =>
      intro r r' hleads h
      cases h
      exact ⟨.refl _, hleads⟩
  | cons d rest ih =>
      intro r r' hleads h
      rw [List.foldlM_cons] at h
      obtain ⟨r₁, hstep, hrest⟩ := exists_of_bind_eq_ok h
      unfold leadsTo at hleads
      rw [hstep, Bool.and_eq_true_iff, decide_eq_true_eq] at hleads
      obtain ⟨hevolves, hfinal⟩ := ih hleads.2 hrest
      exact ⟨(evolves_define hleads.1 hstep).trans hevolves, hfinal⟩

/-- The registry with the layouts of exceptions, before any declaration. -/
def shapedRegistry : Registry :=
  exceptionShapes.foldl (fun r s => (defineShape r s.1 s.2).2) Registry.initial

theorem reachable_shapedRegistry : shapedRegistry.Reachable := by
  refine List.foldlRecOn _ _ (motive := Reachable) (.refl _) fun r reachable s _ => ?_
  exact reachable.trans (evolves_defineShape r s.1 s.2)

/-- The core declarations are valid in their turn, and define all core types. -/
theorem declarations_leadsTo :
    leadsTo (fun r => decide (r.Has Core.interopException)) declarations shapedRegistry = true := by
  decide +kernel

theorem mixins_core : ∀ m ∈ mixins, m.1.index ≤ interopException.index
    ∧ m.2.index ≤ interopException.index := by
  decide

theorem primitives_core : ∀ p ∈ primitives, p.owner.index ≤ interopException.index := by
  decide

/-- The registry of the core types is reachable and equipped. -/
theorem launched_registry (h : Core.registry = .ok r) : r.Launched := by
  obtain ⟨defined, hdefined, hmixed⟩ := exists_of_bind_eq_ok h
  obtain ⟨hevolves, hfinal⟩ := evolves_of_leadsTo _ declarations_leadsTo hdefined
  rw [decide_eq_true_eq] at hfinal
  have hreachable : defined.Reachable := reachable_shapedRegistry.trans hevolves
  have hlaunched : defined.Launched :=
    ⟨hreachable, hreachable.wellFormed, hfinal⟩
  refine foldlM_keeps (P := Launched) _ (fun p mem r₁ r₂ launched hstep => ?_) hlaunched hmixed
  obtain ⟨htarget, hmodule⟩ := mixins_core p mem
  obtain ⟨_, hincluded⟩ := exists_of_accepted hstep
  exact launched.of_evolves (.of_includeModule (launched.equipped.has_core htarget)
    (launched.equipped.has_core hmodule) hincluded)

theorem launched_installPrimitives (launched : r.Launched) :
    (installPrimitives r).Launched := by
  refine List.foldlRecOn _ _ (motive := Launched) launched fun r₁ launched p mem => ?_
  exact launched.of_evolves (.single (.defineMethod p.owner p.name p.arity (.primitive p.primitive))
    (launched.equipped.has_core (primitives_core p mem)))

end Core

-- =============================================================== error numbers

/-- The registry is launched, and the classes of all rows are there. -/
structure ErrnoTable.Sound (state : ErrnoTable × Registry) : Prop where
  launched : state.2.Launched
  has : ∀ row ∈ state.1.rows, state.2.Has row.cls

theorem ErrnoTable.sound_add {state state' : ErrnoTable × Registry} {entry : String × Fixnum}
    (sound : Sound state) (h : add state entry = .ok state') : Sound state' := by
  obtain ⟨t, r⟩ := state
  obtain ⟨name, number⟩ := entry
  have hlaunched : r.Launched := sound.launched
  have herrno : r.Has Core.errno := hlaunched.equipped.has_core (by decide)
  unfold add at h
  dsimp only at h
  split at h
  · next row hrow =>
    cases h
    have hrowHas : r.Has row.cls := sound.has row (List.mem_of_find?_eq_some hrow)
    have hevolves : r.Evolves (r.setConstant Core.errno name (r.typeValue row.cls)) := by
      refine .single (.setConstant _ _ _) ⟨herrno, ?_⟩
      intro o ho
      cases ho
      exact hlaunched.equipped.wellFormed.object_holds hrowHas
    exact
      { launched := hlaunched.of_evolves hevolves
        has := fun row mem =>
          (hevolves.grows hlaunched.equipped.wellFormed).has (sound.has row mem) }
  · split at h
    · cases h
    · next cls r₁ hdef =>
      cases h
      have hdefined : r.Evolves r₁ :=
        .of_defineClassUnder herrno (hlaunched.equipped.has_core (by decide)) hdef
      have hcls : r₁.Has cls := hlaunched.equipped.wellFormed.has_of_defineClassUnder hdef
      have hevolves : r.Evolves (r₁.setConstant cls "Errno" (.fixnum number)) :=
        hdefined.trans (.single (.setConstant cls "Errno" (.fixnum number))
          ⟨hcls, by intro o ho; cases ho⟩)
      refine { launched := hlaunched.of_evolves hevolves, has := fun row mem => ?_ }
      rcases List.mem_append.mp mem with hold | hnew
      · exact (hevolves.grows hlaunched.equipped.wellFormed).has (sound.has row hold)
      · rw [List.mem_singleton] at hnew
        subst hnew
        exact (Grows.setConstant r₁ cls "Errno" (.fixnum number)).has hcls

/-- The registry stays launched when the classes of error numbers are added. -/
theorem ErrnoTable.launched_define {config : NativeConfiguration} {t : ErrnoTable}
    (launched : r.Launched) (h : define r config = .ok (t, r')) : r'.Launched := by
  have hsound : Sound (t, r') :=
    foldlM_keeps (P := Sound) _ (fun _ _ _ _ sound hstep => sound_add sound hstep)
      { launched, has := by intro row mem; cases mem } h
  exact hsound.launched

-- =================================================================== the start

namespace Machine

theorem launched_bootRegistry {config : NativeConfiguration} {t : ErrnoTable}
    (h : bootRegistry config = .ok (t, r)) : r.Launched := by
  obtain ⟨core, hcore, h⟩ := exists_of_bind_eq_ok h
  obtain ⟨⟨t₁, r₁⟩, hdefine, h⟩ := exists_of_bind_eq_ok h
  obtain ⟨_, _, h⟩ := exists_of_bind_eq_ok h
  cases h
  exact ErrnoTable.launched_define
    (Core.launched_installPrimitives (Core.launched_registry hcore)) hdefine

/-- A step of a start: the registry evolves, and the machine's own two objects
stay the same. -/
structure Advances (m m' : Machine) : Prop where
  evolves : m.registry.Evolves m'.registry
  main_eq : m'.mainObject = m.mainObject
  undefined_eq : m'.undefinedObject = m.undefinedObject

theorem Advances.trans {a b c : Machine} (hab : Advances a b) (hbc : Advances b c) :
    Advances a c where
  evolves := hab.evolves.trans hbc.evolves
  main_eq := hbc.main_eq.trans hab.main_eq
  undefined_eq := hbc.undefined_eq.trans hab.undefined_eq

theorem advances_setConstant {m : Machine} {owner : TypeId} (name : String) {v : Value}
    (has : m.registry.Has owner) (holds : m.registry.HoldsValue v) :
    Advances m (m.setConstant owner name v) where
  evolves := .single (.setConstant owner name v) ⟨has, holds⟩
  main_eq := rfl
  undefined_eq := rfl

/-- A constant bound to a new string. -/
theorem advances_setTextConstant {m : Machine} (equipped : m.registry.Equipped)
    (name text : String) : Advances m (m.setTextConstant name text) := by
  have hmade : Advances m (m.newString text).2 := ⟨evolves_newString equipped text, rfl, rfl⟩
  refine hmade.trans (advances_setConstant name ?_ ?_)
  · exact (equipped.of_evolves hmade.evolves).has_core (by decide)
  · intro o ho
    cases ho
    exact (holds_allocObject m.registry).mpr (.inr rfl)

/-- A machine with the constants of a start, before its main object has a name. -/
def withConstants (m : Machine) : Machine :=
  let m := m.setTextConstant "RUBY_ENGINE" engineName
  let m := m.setTextConstant "RUBY_VERSION" languageVersion
  let m := m.setConstant Core.object "RUBY_PATCHLEVEL" (.ofInt 0)
  let m := m.setTextConstant "RUBY_PLATFORM" platformName
  let m := m.setConstant Core.basicObject "BasicObject" (m.registry.typeValue Core.basicObject)
  m.setConstant Core.truffle "UNDEFINED" (.object m.undefinedObject)

/-- After the constants the main object gets two methods of its own. -/
theorem exists_of_withBootConstants {m m' : Machine} (h : m.withBootConstants = .ok m') :
    ∃ arity name m₁,
      m.withConstants.defineSingletonMethod (.object m.withConstants.mainObject) "to_s" arity name
        = .ok m₁
      ∧ m₁.defineSingletonMethod (.object m.withConstants.mainObject) "inspect" arity name
        = .ok m' := by
  unfold withBootConstants at h
  extract_lets m₁ m₂ m₃ m₄ m₅ m₆ mainValue name named at h
  cases hnamed : named with
  | error e =>
      rw [hnamed] at h
      cases h
  | ok m₈ =>
      rw [hnamed] at h
      cases h
      exact ⟨_, _, exists_of_bind_eq_ok hnamed⟩

theorem advances_withConstants {m : Machine} (equipped : m.registry.Equipped)
    (undefined : m.registry.Holds m.undefinedObject) : Advances m m.withConstants := by
  unfold withConstants
  extract_lets m₁ m₂ m₃ m₄ m₅
  have hequipped : ∀ {a}, Advances m a → a.registry.Equipped :=
    fun before => equipped.of_evolves before.evolves
  have h₁ : Advances m m₁ := advances_setTextConstant equipped _ _
  clear_value m₁
  have h₂ : Advances m m₂ := h₁.trans (advances_setTextConstant (hequipped h₁) _ _)
  clear_value m₂
  have h₃ : Advances m m₃ := by
    refine h₂.trans (advances_setConstant _ ?_ ?_)
    · exact (hequipped h₂).has_core (by decide)
    · intro o ho
      cases ho
  clear_value m₃
  have h₄ : Advances m m₄ := h₃.trans (advances_setTextConstant (hequipped h₃) _ _)
  clear_value m₄
  have h₅ : Advances m m₅ := by
    refine h₄.trans (advances_setConstant _ ?_ ?_)
    · exact (hequipped h₄).has_core (by decide)
    · intro o ho
      cases ho
      exact (hequipped h₄).wellFormed.object_holds ((hequipped h₄).has_core (by decide))
  clear_value m₅
  refine h₅.trans (advances_setConstant _ ?_ ?_)
  · exact (hequipped h₅).has_core (by decide)
  · intro o ho
    cases ho
    rw [h₅.undefined_eq]
    exact (h₅.evolves.grows equipped.wellFormed).holds undefined

theorem launched_withBootConstants {m m' : Machine} (launched : m.registry.Launched)
    (main : m.registry.Holds m.mainObject) (undefined : m.registry.Holds m.undefinedObject)
    (h : m.withBootConstants = .ok m') : m'.registry.Launched := by
  have hconstants : Advances m m.withConstants :=
    advances_withConstants launched.equipped undefined
  have hmain : ∀ {r : Registry}, m.registry.Evolves r →
      r.HoldsValue (.object m.withConstants.mainObject) := by
    intro r before o ho
    cases ho
    rw [hconstants.main_eq]
    exact (before.grows launched.equipped.wellFormed).holds main
  obtain ⟨arity, name, m₁, hfirst, hsecond⟩ := exists_of_withBootConstants h
  have hnamed : m.registry.Evolves m₁.registry :=
    hconstants.evolves.trans (evolves_defineSingletonMethod
      (launched.equipped.of_evolves hconstants.evolves) (hmain hconstants.evolves) hfirst)
  exact launched.of_evolves (hnamed.trans
    (evolves_defineSingletonMethod (launched.equipped.of_evolves hnamed) (hmain hnamed) hsecond))

/-- The two objects that a machine is made around are there. -/
theorem launched_around (o : Options) (path : String) (launched : r.Launched) :
    (around o path r).registry.Launched
      ∧ (around o path r).registry.Holds (around o path r).mainObject
      ∧ (around o path r).registry.Holds (around o path r).undefinedObject := by
  have hfirst : r.Evolves (r.allocObject Core.object .plain).2 :=
    .single (.makeObject Core.object none) (launched.equipped.has_core (by decide))
  have hlaunched := launched.of_evolves hfirst
  have hsecond : (r.allocObject Core.object .plain).2.Evolves
      ((r.allocObject Core.object .plain).2.allocObject Core.object .plain).2 :=
    .single (.makeObject Core.object none) (hlaunched.equipped.has_core (by decide))
  refine ⟨hlaunched.of_evolves hsecond, ?_, (holds_allocObject _).mpr (.inr rfl)⟩
  exact (holds_allocObject _).mpr (.inl ((holds_allocObject r).mpr (.inr rfl)))

/-- A start that succeeds made a registry, put a machine around it and bound the
constants. -/
theorem exists_of_start {o : Options} {config : NativeConfiguration} {files : FileTree}
    {m : Machine} (h : start o config files = .ok m) :
    ∃ path errno r patches, bootRegistry config = .ok (errno, r)
      ∧ withBootConstants { around o path r with errno, patches } = .ok m := by
  unfold start at h
  split at h
  · cases h
  · next path _ =>
    split at h
    · cases h
    · next errno r hboot => exact ⟨path, errno, r, _, hboot, h⟩

/-- The registry of a machine that has started is launched. -/
theorem launched_start {o : Options} {config : NativeConfiguration} {files : FileTree}
    {m : Machine} (h : start o config files = .ok m) : m.registry.Launched := by
  obtain ⟨path, errno, r, patches, hboot, hconstants⟩ := exists_of_start h
  obtain ⟨hlaunched, hmain, hundefined⟩ :=
    launched_around o path (launched_bootRegistry hboot)
  refine launched_withBootConstants ?_ ?_ ?_ hconstants
  · exact hlaunched
  · exact hmain
  · exact hundefined

/-- Without a home directory and without error numbers a start succeeds. -/
theorem exists_start : ∃ m, start .standard .empty ⟨.emptyDirectory, []⟩ = .ok m := by
  have hmade : (start .standard .empty ⟨.emptyDirectory, []⟩).isOk = true := by
    decide +kernel
  cases hm : start .standard .empty ⟨.emptyDirectory, []⟩ with
  | error e =>
      rw [hm] at hmade
      cases hmade
  | ok m => exact ⟨m, rfl⟩

end Machine

end ObjectModel
