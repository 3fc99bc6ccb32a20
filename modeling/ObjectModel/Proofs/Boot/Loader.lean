/-
What a load relies on.

The options of a machine, the path of its core library and its main object are
set at the start for good, and its table of globals is only ever changed by
operations that keep it sound. Code may do anything else, but the machine's life
is not its business: a code loader is regular if it leaves that alone, too. The
end of loading proper is said once here (`finish_finishLoading`): a constant is
missing, or the machine was loaded already, or it enters the loaded state.
-/
import ObjectModel.Boot.Script
import ObjectModel.Proofs.Boot.Start
import ObjectModel.Proofs.Machine.Globals

namespace ObjectModel

universe u v

variable {m m' m'' : Machine}

namespace Machine

-- ========================================================== what stays the same

/-- What nothing in the life of a machine changes. -/
structure Kept (m m' : Machine) : Prop where
  options : m'.options = m.options
  coreLoadPath : m'.coreLoadPath = m.coreLoadPath
  mainObject : m'.mainObject = m.mainObject
  globals : m.globals.Sound → m'.globals.Sound

/-- What code does to a machine: it does not move its life. -/
structure Steady (m m' : Machine) : Prop where
  kept : m.Kept m'
  lifecycle : m'.lifecycle = m.lifecycle

/-- What code does that does not switch the flags over, either. -/
structure Plain (m m' : Machine) : Prop where
  steady : m.Steady m'
  flags : m'.flags = m.flags

theorem Kept.refl (m : Machine) : m.Kept m := ⟨rfl, rfl, rfl, id⟩

theorem Kept.trans (h : m.Kept m') (h' : m'.Kept m'') : m.Kept m'' where
  options := h'.options.trans h.options
  coreLoadPath := h'.coreLoadPath.trans h.coreLoadPath
  mainObject := h'.mainObject.trans h.mainObject
  globals sound := h'.globals (h.globals sound)

theorem Steady.trans (h : m.Steady m') (h' : m'.Steady m'') : m.Steady m'' :=
  ⟨h.kept.trans h'.kept, h'.lifecycle.trans h.lifecycle⟩

theorem Plain.refl (m : Machine) : m.Plain m := ⟨⟨.refl m, rfl⟩, rfl⟩

theorem Plain.trans (h : m.Plain m') (h' : m'.Plain m'') : m.Plain m'' :=
  ⟨h.steady.trans h'.steady, h'.flags.trans h.flags⟩

theorem kept_lifecycle (m : Machine) (lifecycle : LifecycleState) :
    m.Kept { m with lifecycle } := ⟨rfl, rfl, rfl, id⟩

theorem plain_registry (m : Machine) (registry : Registry) :
    m.Plain { m with registry } := ⟨⟨⟨rfl, rfl, rfl, id⟩, rfl⟩, rfl⟩

/-- An access to globals changes the table at most, whatever hooks it runs. -/
theorem plain_afterAccess {α : Type} {access : Option (Except Raise α × GlobalTable HostState)}
    (sound : ∀ {answer globals}, access = some (answer, globals) →
      m.globals.Sound → globals.Sound) : m.Plain (m.afterAccess access).2 := by
  cases access with
  | none => exact .refl m
  | some returned => exact ⟨⟨⟨rfl, rfl, rfl, sound rfl⟩, rfl⟩, rfl⟩

theorem plain_setGlobal (m : Machine) (name : String) (v : Value) :
    m.Plain (m.setGlobal name v).2 :=
  plain_afterAccess GlobalTable.stable_sound.call

theorem snd_orNil (access : Outcome × Machine) : (orNil access).2 = access.2 := by
  obtain ⟨_ | _, m⟩ := access <;> rfl

theorem plain_readOrNil (m : Machine) (id : StorageId) : m.Plain (m.readOrNil id).2 := by
  unfold readOrNil
  rw [snd_orNil]
  exact plain_afterAccess GlobalTable.stable_sound.call

theorem plain_debug (m : Machine) : m.Plain m.debug.2 := by
  unfold debug
  split
  · exact plain_readOrNil m _
  · exact .refl m

-- =============================================================== fresh machines

/-- A machine that has not loaded anything. -/
structure Fresh (m : Machine) : Prop where
  initializing : m.lifecycle = .initializing
  unswitched : m.flags = none
  sound : m.globals.Sound

theorem Fresh.of_registry (fresh : m.Fresh) (registry : Registry) :
    Fresh { m with registry } := ⟨fresh.initializing, fresh.unswitched, fresh.sound⟩

theorem sound_initialGlobals (o : Options) : (initialGlobals o).Sound := by
  unfold initialGlobals
  extract_lets t t₁ t₂ t₃ t₄ t₅ t₆ t₇
  have h₃ : t₃.Sound :=
    (((GlobalTable.sound_empty _).setInternal _ _).setInternal _ _).setInternal _ _
  clear_value t₃
  exact ((((h₃.addAlias _ _).addAlias _ _).addAlias _ _).addAlias _ _).addAlias _ _

theorem fresh_around (o : Options) (path : String) (r : Registry) : (around o path r).Fresh :=
  ⟨rfl, rfl, sound_initialGlobals o⟩

theorem Fresh.setConstant (fresh : m.Fresh) (owner : TypeId) (name : String) (v : Value) :
    (m.setConstant owner name v).Fresh := fresh.of_registry _

theorem Fresh.setTextConstant (fresh : m.Fresh) (name text : String) :
    (m.setTextConstant name text).Fresh := fresh.of_registry _

theorem fresh_defineSingletonMethod {o : ObjectId} {name : String} {arity : Arity} {body : Body}
    (fresh : m.Fresh) (h : m.defineSingletonMethod (.object o) name arity body = .ok m') :
    m'.Fresh := by
  cases h
  exact fresh.of_registry _

theorem fresh_withBootConstants (fresh : m.Fresh) (h : m.withBootConstants = .ok m') :
    m'.Fresh := by
  obtain ⟨arity, name, m₁, hfirst, hsecond⟩ := exists_of_withBootConstants h
  have hconstants : m.withConstants.Fresh :=
    (((((fresh.setTextConstant _ _).setTextConstant _ _).setConstant _ _ _).setTextConstant
      _ _).setConstant _ _ _).setConstant _ _ _
  exact fresh_defineSingletonMethod (fresh_defineSingletonMethod hconstants hfirst) hsecond

/-- A machine that has started is fresh. -/
theorem fresh_start {o : Options} {config : NativeConfiguration} {files : FileTree}
    (h : start o config files = .ok m) : m.Fresh := by
  obtain ⟨path, errno, r, patches, -, hconstants⟩ := exists_of_start h
  have hfresh : (around o path r).Fresh := fresh_around o path r
  refine fresh_withBootConstants ⟨?_, ?_, ?_⟩ hconstants
  · exact hfresh.initializing
  · exact hfresh.unswitched
  · exact hfresh.sound

-- ========================================================== the end of loading

theorem advance_of_lt {target : LifecycleState} (h : m.lifecycle.rank < target.rank) :
    m.advance target = .ok { m with lifecycle := target } := by
  unfold advance LifecycleState.advance?
  rw [if_pos h]

theorem advance_of_le {target : LifecycleState} (h : target.rank ≤ m.lifecycle.rank) :
    m.advance target = .error (.illegalTransition m.lifecycle target) := by
  unfold advance LifecycleState.advance?
  rw [if_neg (Nat.not_lt.mpr h)]

/-- A machine is loaded, or may become so. -/
theorem loaded_or_rank_lt (m : Machine) :
    m.lifecycle = .loaded ∨ m.lifecycle.rank < LifecycleState.loaded.rank := by
  cases m.lifecycle with
  | initializing => exact .inr (by decide)
  | loadingCoreLibrary => exact .inr (by decide)
  | loaded => exact .inl rfl

/-- The move to the loaded state, with the hook before it. -/
structure Entered (required : List String) (here moved : Machine) : Prop where
  kept : here.Kept moved
  /-- Every constant that the core library has to define resolves. -/
  resolved : ∀ path ∈ required, (here.registry.resolve? path).isSome
  unloaded : here.lifecycle ≠ .loaded
  loaded : moved.lifecycle = .loaded
  /-- The program's name is a string of one dash. -/
  named : ∃ v, moved.globals.get programNameGlobal = some (.ok v, moved.globals)
    ∧ moved.registry.textOf? v = some "-"

/-- What the end of loading proper comes to. -/
inductive Finish (required : List String) (m : Machine) : Except BootError Unit × Machine → Prop
  | missing {path : String} : m.missingConstant? required = some path →
      Finish required m (.error (.missingConstant path), m)
  | refused {m' : Machine} : m.Kept m' → m.lifecycle = .loaded → m'.lifecycle = .loaded →
      Finish required m (.error (.illegalTransition .loaded .loaded), m')
  | entered {m' : Machine} : Entered required m m' → Finish required m (.ok (), m')

/-- A string that was made now has its text. -/
theorem textOf?_newString (m : Machine) (text : String) :
    (m.newString text).2.registry.textOf? (m.newString text).1 = some text := by
  have hvalue : (m.newString text).1 = .object ⟨m.registry.heap.length⟩ := rfl
  have hregistry : (m.newString text).2.registry
      = (m.registry.allocObject Core.string (.text text)).2 := rfl
  rw [hvalue, hregistry]
  unfold Registry.textOf?
  dsimp only
  rw [Registry.cell_allocObject_new]

/-- The hook does not move the life of a machine. -/
theorem steady_afterLoad {required : List String} (h : m.afterLoad required = .ok m') :
    m.Steady m' := by
  unfold afterLoad at h
  split at h
  · cases h
  · cases h
    refine ⟨⟨rfl, rfl, rfl, fun sound => GlobalTable.Sound.setInternal ?_ _ _⟩, rfl⟩
    exact (((sound.storageOf _).1.storageOf _).1.storageOf _).1

/-- What the hook does to a machine that has all constants. -/
theorem afterLoad_eq {required : List String} (sound : m.globals.Sound)
    (resolved : m.missingConstant? required = none) :
    ∃ hooked, m.afterLoad required = .ok hooked ∧ m.Steady hooked
      ∧ ∃ v, hooked.globals.get programNameGlobal = some (.ok v, hooked.globals)
        ∧ hooked.registry.textOf? v = some "-" := by
  unfold afterLoad
  rw [resolved]
  dsimp only
  rcases hpath : m.globals.reader loadPathGlobal with ⟨loadPath, globals₁⟩
  dsimp only
  rcases hdebug : globals₁.reader debugGlobal with ⟨debug, globals₂⟩
  dsimp only
  rcases hverbose : globals₂.reader verboseGlobal with ⟨verbose, globals₃⟩
  dsimp only
  have hsound : globals₃.Sound := ((sound.reader hpath).reader hdebug).reader hverbose
  generalize m.flags.getD ⟨loadPath, debug, verbose⟩ = flags
  let switched : Machine := { m with globals := globals₃, flags := some flags }
  let name : Value := (switched.newString "-").1
  refine ⟨{ (switched.newString "-").2 with
    globals := globals₃.setInternal programNameGlobal name }, rfl, ?_, name, ?_, ?_⟩
  · exact ⟨⟨rfl, rfl, rfl, fun _ => hsound.setInternal _ _⟩, rfl⟩
  · exact hsound.get_setInternal _ _
  · exact textOf?_newString switched "-"

theorem finish_finishLoading (required : List String) (sound : m.globals.Sound) :
    Finish required m (m.finishLoading required) := by
  unfold finishLoading
  cases hmissing : m.missingConstant? required with
  | some path =>
      unfold afterLoad
      rw [hmissing]
      exact .missing hmissing
  | none =>
      obtain ⟨hooked, hhook, steady, named⟩ := afterLoad_eq sound hmissing
      rw [hhook]
      dsimp only
      rcases loaded_or_rank_lt hooked with hloaded | hlt
      · rw [advance_of_le (Nat.le_of_eq (by rw [hloaded])), hloaded]
        exact .refused steady.kept (steady.lifecycle.symm.trans hloaded) hloaded
      · rw [advance_of_lt hlt]
        refine .entered ⟨steady.kept.trans (kept_lifecycle _ _), ?_, ?_, rfl, named⟩
        · intro path mem
          have hthere := List.find?_eq_none.mp hmissing path mem
          rw [Option.isSome_iff_ne_none]
          intro hnone
          rw [hnone] at hthere
          exact hthere rfl
        · intro hloaded
          rw [steady.lifecycle, hloaded] at hlt
          exact Nat.lt_irrefl _ hlt

end Machine

-- ================================================================ code loaders

namespace CodeLoader

variable {σ : Type u} {υ : Type v}

/-- Parsing and running leave alone what is not the business of code. -/
structure Regular (code : CodeLoader σ υ) : Prop where
  parse : ∀ source s (m : Machine), m.Steady (code.parse source s m).2.2
  run : ∀ unit context receiver s (m : Machine),
    m.Steady (code.run unit context receiver s m).2.2

variable {code : CodeLoader σ υ} {s s' : σ}

theorem Regular.of_parse {source : SourceUnit} {result : Except Raise υ} (regular : code.Regular)
    (h : code.parse source s m = (result, s', m')) : m.Steady m' := by
  have hsteady := regular.parse source s m
  rw [h] at hsteady
  exact hsteady

theorem Regular.of_run {unit : υ} {context : DeclarationContext} {receiver : Value}
    {outcome : Outcome} (regular : code.Regular)
    (h : code.run unit context receiver s m = (outcome, s', m')) : m.Steady m' := by
  have hsteady := regular.run unit context receiver s m
  rw [h] at hsteady
  exact hsteady

end CodeLoader

namespace Script

theorem plain_wordValue (m : Machine) (text : String) : m.Plain (wordValue m text).2 := by
  unfold wordValue
  split
  · exact .refl m
  · split
    · exact .refl m
    · split
      · exact .refl m
      · exact Machine.plain_registry m _

theorem plain_defining (m : Machine) (result : Except RegistryError TypeId × Registry) :
    m.Plain (defining m result).2 := by
  unfold defining
  split
  · exact Machine.plain_registry m _
  · exact Machine.plain_registry m _

theorem plain_run (c : Command) (m : Machine) : m.Plain (c.run m).2 := by
  cases c with
  | constant owner name =>
      unfold Command.run
      dsimp only
      split
      · exact Machine.plain_registry m _
      · exact .refl m
  | newModule name => exact plain_defining m _
  | newClass name superclass => exact plain_defining m _
  | global name text => exact (plain_wordValue m text).trans (Machine.plain_setGlobal _ name _)
  | raise cls message => exact .refl m

theorem plain_runAll : ∀ (commands : List Command) (m : Machine),
    m.Plain (runAll commands m).2 := by
  intro commands
  induction commands with
  | nil => exact .refl
  | cons c rest ih =>
      intro m
      have hrun := plain_run c m
      unfold runAll
      split
      · next m₁ h =>
        rw [h] at hrun
        exact hrun.trans (ih m₁)
      · next m₁ h =>
        rw [h] at hrun
        exact hrun

theorem plain_parse (source : SourceUnit) (seen : List Sighting) (m : Machine) :
    m.Plain (loader.parse source seen m).2.2 := by
  unfold loader
  dsimp only
  split
  · exact .refl m
  · exact .refl m

/-- The loader of units does not move the life of a machine. -/
theorem regular_loader : loader.Regular where
  parse source seen m := (plain_parse source seen m).steady
  run unit _ _ _ m :=
    (m.plain_debug.trans (plain_runAll (commands unit.text) m.debug.2)).steady

end Script

end ObjectModel
