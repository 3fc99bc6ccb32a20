/-
After the after-load hook the flags are the globals.

The hook captures the storages that the flags' names lead to at that moment. A
storage stays what its names make of it, plain or hooked, so a flag and its
global agree for as long as the name leads to the captured storage (`Bound`).
Nothing parts the two but an alias that moves the flag's own name: then the flag
stays with the storage that it was given, and the name goes elsewhere.

Whatever a program does is seen here as operations on the globals, runs of the
after-load hook, and steps that touch neither globals nor readers (`Comes`). What
binds names to readers is kept along all of these, and a load of the core library
is made of them if what its code did at each turn is; the record of the load says
what that was.
-/
import ObjectModel.Proofs.Boot.Protocol

namespace ObjectModel

universe u v

-- ===================================================================== flags

/-- A flag that is read from a global. -/
inductive Flag where
  | loadPath
  | debug
  | verbose
deriving DecidableEq

namespace Flag

/-- The name of the flag's global. -/
def global : Flag → String
  | .loadPath => loadPathGlobal
  | .debug => debugGlobal
  | .verbose => verboseGlobal

/-- The storage that was captured for the flag. -/
def storage (readers : FlagReaders) : Flag → StorageId
  | .loadPath => readers.loadPath
  | .debug => readers.debug
  | .verbose => readers.verbose

end Flag

variable {m m' m'' : Machine} {flag : Flag}

namespace Machine

/-- The value of a global, nil if its getter raises, and the machine that reading it
leaves. -/
def globalOrNil (m : Machine) (name : String) : Value × Machine := orNil (m.getGlobal name)

/-- Once storages are captured, the flag's name leads to the one that was
captured for it. -/
def Bound (flag : Flag) (m : Machine) : Prop :=
  ∀ readers, m.flags = some readers →
    m.globals.names.get? flag.global = some (flag.storage readers)

end Machine

/-- Asking for the flag comes to the same as reading the global of a name. -/
def Flag.Agrees (m : Machine) (name : String) : Flag → Prop
  | .loadPath => m.loadPath = m.globalOrNil name
  | .debug => m.debug = ((m.globalOrNil name).1.isTruthy, (m.globalOrNil name).2)
  | .verbose => m.verbosity = m.globalOrNil name

namespace Machine

/-- A flag is what any name says that leads to its captured storage. -/
theorem agrees_of_leads {readers : FlagReaders} {name : String} (hreaders : m.flags = some readers)
    (leads : m.globals.names.get? name = some (flag.storage readers)) : flag.Agrees m name := by
  have hget : m.readOrNil (flag.storage readers) = m.globalOrNil name := by
    unfold readOrNil globalOrNil getGlobal
    rw [GlobalTable.get_of_bound leads]
  cases flag with
  | loadPath =>
      unfold Flag.Agrees loadPath
      rw [hreaders]
      exact hget
  | debug =>
      unfold Flag.Agrees debug
      rw [hreaders, ← hget]
      rfl
  | verbose =>
      unfold Flag.Agrees verbosity
      rw [hreaders]
      exact hget

-- ================================================================== one step

/-- An operation that does not move the flag's name keeps it bound. -/
theorem Bound.act (bound : Bound flag m) {op : GlobalOperation HostState}
    (kept : m.flags.isSome → ¬ op.Moves m.globals flag.global) :
    Bound flag { m with globals := op.act m.globals } := by
  intro readers h
  refine GlobalTable.names_of_not_moves (bound readers h) (kept ?_)
  rw [show m.flags = some readers from h]
  rfl

/-- The three storages are asked for one after the other, and each name leads to
its own in the end. -/
theorem names_captured (t : GlobalTable HostState) (flag : Flag) :
    let path := t.storageOf loadPathGlobal
    let debug := path.2.storageOf debugGlobal
    let verbose := debug.2.storageOf verboseGlobal
    verbose.2.names.get? flag.global = some (flag.storage ⟨path.1, debug.1, verbose.1⟩) := by
  intro path debug verbose
  cases flag with
  | loadPath =>
      exact GlobalTable.names_storageOf
        (GlobalTable.names_storageOf (t.names_storageOf_self loadPathGlobal) debugGlobal) _
  | debug => exact GlobalTable.names_storageOf (path.2.names_storageOf_self debugGlobal) _
  | verbose => exact debug.2.names_storageOf_self verboseGlobal

/-- What the hook does to globals and readers: readers that are there stay. -/
theorem afterLoad_inv {required : List String} (h : m.afterLoad required = .ok m') :
    let path := m.globals.storageOf loadPathGlobal
    let debug := path.2.storageOf debugGlobal
    let verbose := debug.2.storageOf verboseGlobal
    m'.flags = some (m.flags.getD ⟨path.1, debug.1, verbose.1⟩)
      ∧ ∃ name, m'.globals = verbose.2.setInternal programNameGlobal name := by
  unfold afterLoad at h
  split at h
  · cases h
  · cases h
    exact ⟨rfl, _, rfl⟩

/-- The hook captures storages if none are captured, and keeps the names that
lead to them. -/
theorem Bound.afterLoad {required : List String} (bound : Bound flag m)
    (h : m.afterLoad required = .ok m') : Bound flag m' := by
  obtain ⟨hflags, name, hglobals⟩ := afterLoad_inv h
  intro readers hreaders
  rw [hflags, Option.some_inj] at hreaders
  rw [hglobals]
  refine GlobalTable.names_storageOf ?_ programNameGlobal
  cases hold : m.flags with
  | some old =>
      rw [hold, Option.getD_some] at hreaders
      subst hreaders
      exact GlobalTable.names_storageOf (GlobalTable.names_storageOf
        (GlobalTable.names_storageOf (bound old hold) _) _) _
  | none =>
      rw [hold, Option.getD_none] at hreaders
      rw [← hreaders]
      exact names_captured m.globals flag

-- ================================================================== whole runs

/-- A machine comes to another one by operations on its globals, by the hook, and
by whatever touches neither globals nor captured storages. Once storages are
captured, no operation moves the flag's name. -/
inductive Comes (flag : Flag) (m : Machine) : Machine → Prop
  | refl : Comes flag m m
  | operate {m' : Machine} (op : GlobalOperation HostState) : Comes flag m m' →
      (m'.flags.isSome → ¬ op.Moves m'.globals flag.global) →
      Comes flag m { m' with globals := op.act m'.globals }
  | hook {m' m'' : Machine} {required : List String} : Comes flag m m' →
      m'.afterLoad required = .ok m'' → Comes flag m m''
  | other {m' m'' : Machine} : Comes flag m m' → m''.flags = m'.flags →
      m''.globals = m'.globals → Comes flag m m''

namespace Comes

theorem trans (h : m.Comes flag m') (h' : m'.Comes flag m'') : m.Comes flag m'' := by
  induction h' with
  | refl => exact h
  | operate op _ kept ih => exact ih.operate op kept
  | hook _ hooked ih => exact ih.hook hooked
  | other _ flags globals ih => exact ih.other flags globals

/-- A change of anything but globals and captured storages. -/
theorem of_same (flags : m'.flags = m.flags) (globals : m'.globals = m.globals) :
    m.Comes flag m' :=
  .other .refl flags globals

/-- What was captured stays captured. -/
theorem isSome (h : m.Comes flag m') (switched : m.flags.isSome) : m'.flags.isSome := by
  induction h with
  | refl => exact switched
  | operate _ _ _ ih => exact ih
  | hook _ hooked _ =>
      rw [(afterLoad_inv hooked).1]
      rfl
  | other _ flags _ ih =>
      rw [flags]
      exact ih

/-- All along, the flag's name leads to what was captured for it. -/
theorem bound (h : m.Comes flag m') (bound : Bound flag m) : Bound flag m' := by
  induction h with
  | refl => exact bound
  | operate op _ kept ih => exact ih.act kept
  | hook _ hooked ih => exact ih.afterLoad hooked
  | other _ flags globals ih =>
      intro readers h
      rw [globals]
      exact ih readers (flags.symm.trans h)

end Comes

/-- A move forward changes the stage of life alone. -/
theorem advance_inv {target : LifecycleState} (h : m.advance target = .ok m') :
    m' = { m with lifecycle := target } := by
  unfold advance LifecycleState.advance? at h
  split at h
  · next lifecycle hmoved =>
    split at hmoved
    · cases hmoved
      cases h
      rfl
    · cases hmoved
  · cases h

/-- The end of loading proper leaves a loaded machine, or fails. -/
theorem loaded_of_finishLoading {required : List String}
    (h : m.finishLoading required = (.ok (), m')) : m'.lifecycle = .loaded := by
  unfold finishLoading at h
  split at h
  · cases h
  · split at h
    · cases h
    · next hadvance =>
      cases h
      rw [advance_inv hadvance]

/-- A machine comes to another one, and is not loaded without the hook. -/
structure Arrives (flag : Flag) (m m' : Machine) : Prop where
  comes : m.Comes flag m'
  switched : (m.lifecycle = .loaded → m.flags.isSome) → m'.lifecycle = .loaded → m'.flags.isSome

namespace Arrives

theorem refl (flag : Flag) (m : Machine) : m.Arrives flag m := ⟨.refl, id⟩

theorem trans (h : m.Arrives flag m') (h' : m'.Arrives flag m'') : m.Arrives flag m'' :=
  ⟨h.comes.trans h'.comes, fun start => h'.switched (h.switched start)⟩

/-- What does not move the life of a machine does not load it. -/
theorem of_comes (comes : m.Comes flag m') (lifecycle : m'.lifecycle = m.lifecycle) :
    m.Arrives flag m' where
  comes := comes
  switched start loaded := comes.isSome (start (lifecycle.symm.trans loaded))

/-- The end of loading proper has the hook in it. -/
theorem finishLoading (flag : Flag) (m : Machine) (required : List String) :
    m.Arrives flag (m.finishLoading required).2 := by
  unfold Machine.finishLoading
  split
  · exact refl flag m
  · next hooked hhook =>
    have hcomes : m.Comes flag hooked := .hook .refl hhook
    have hswitched : hooked.flags.isSome := by
      rw [(afterLoad_inv hhook).1]
      rfl
    split
    · exact ⟨hcomes, fun _ _ => hswitched⟩
    · next moved hadvance =>
      obtain rfl := advance_inv hadvance
      exact ⟨.other hcomes rfl rfl, fun _ _ => hswitched⟩

end Arrives

end Machine

-- =============================================================== whole loads

namespace CodeLoader

variable {σ : Type u} {υ : Type v}

/-- All that code did in a load left the life of the machine alone and, once storages
were captured, where the flag's name leads. What else it did to globals is its own
affair. -/
def LeavesName (flag : Flag) (s : Record σ) : Prop :=
  s.Always fun m m' => m.Comes flag m' ∧ m'.lifecycle = m.lifecycle

variable {code : CodeLoader σ υ} {sources : SourceLoader σ} {s : Record σ}

theorem Turn.arrives {path : String} {loaded : Loaded (Record σ)}
    (turn : Turn code sources path s m loaded) (leaves : LeavesName flag loaded.2.1) :
    m.Arrives flag loaded.2.2 := by
  have hparsed : ∀ parse ∈ loaded.2.1.parses, parse.before.Arrives flag parse.after :=
    fun parse mem => .of_comes (leaves.parsed parse mem).1 (leaves.parsed parse mem).2
  have hran : ∀ visit ∈ loaded.2.1.visits, visit.before.Arrives flag visit.after :=
    fun visit mem => .of_comes (leaves.ran visit mem).1 (leaves.ran visit mem).2
  cases turn with
  | unread => exact .refl flag m
  | unparsed => exact hparsed _ List.mem_concat_self
  | raised => exact (hparsed _ List.mem_concat_self).trans (hran _ List.mem_concat_self)
  | ran => exact (hparsed _ List.mem_concat_self).trans (hran _ List.mem_concat_self)

/-- The record of a load grows, and where code leaves the flag's name, the machine
arrives. -/
theorem arrives_loadUnits (plan : LoadPlan) : ∀ (units : List String) (s : Record σ)
    (m : Machine), s.Grows (code.recorded.loadUnits sources.recorded plan units s m).2.1
      ∧ (LeavesName flag (code.recorded.loadUnits sources.recorded plan units s m).2.1 →
        m.Arrives flag (code.recorded.loadUnits sources.recorded plan units s m).2.2) := by
  intro units
  induction units with
  | nil => intro s m; exact ⟨.refl s, fun _ => .refl flag m⟩
  | cons unit rest ih =>
      intro s m
      unfold loadUnits
      dsimp only
      have hready : m.Arrives flag (if unit = plan.postBoot
          then m.finishLoading plan.requiredConstants else (.ok (), m)).2 := by
        split
        · exact .finishLoading flag m _
        · exact .refl flag m
      generalize (if unit = plan.postBoot
        then m.finishLoading plan.requiredConstants else (.ok (), m)) = ready at hready ⊢
      rcases ready with ⟨e | _, m₁⟩
      · exact ⟨.refl s, fun _ => hready⟩
      · dsimp only
        have hturn : Turn code sources (m₁.coreLoadPath ++ unit) s m₁ _ := turn_loadUnit _ s m₁
        generalize code.recorded.loadUnit sources.recorded (m₁.coreLoadPath ++ unit) s m₁
          = loaded at hturn
        rcases loaded with ⟨e | _, s₂, m₂⟩
        · exact ⟨hturn.grows, fun leaves => hready.trans (hturn.arrives leaves)⟩
        · obtain ⟨hgrows, harrives⟩ := ih s₂ m₂
          refine ⟨hturn.grows.trans hgrows, fun leaves => ?_⟩
          exact (hready.trans (hturn.arrives (leaves.of_grows hgrows))).trans (harrives leaves)

/-- A machine that loaded its core library has its flags switched over. -/
theorem comes_loadCore {plan : LoadPlan} {record : Record σ}
    (h : code.recorded.loadCore sources.recorded plan s m = (.ok (), record, m'))
    (leaves : LeavesName flag record) : m.Comes flag m' ∧ m'.flags.isSome := by
  unfold loadCore at h
  split at h
  · cases h
  · next entered hadvance =>
    obtain rfl := Machine.advance_inv hadvance
    have hentered : m.Comes flag { m with lifecycle := .loadingCoreLibrary } := .of_same rfl rfl
    have hunits : LeavesName flag (code.recorded.loadUnits sources.recorded plan plan.units s
        { m with lifecycle := .loadingCoreLibrary }).2.1 → _ :=
      (arrives_loadUnits plan plan.units s { m with lifecycle := .loadingCoreLibrary }).2
    generalize code.recorded.loadUnits sources.recorded plan plan.units s
      { m with lifecycle := .loadingCoreLibrary } = loaded at h hunits
    rcases loaded with ⟨e | _, s₂, m₂⟩
    · cases h
    · dsimp only at h hunits
      split at h
      · next hlifecycle =>
        cases h
        have harrives := hunits leaves
        exact ⟨hentered.trans harrives.comes, harrives.switched nofun hlifecycle⟩
      · generalize hfinished : m₂.finishLoading plan.requiredConstants = finished at h
        obtain ⟨result, m₃⟩ := finished
        cases h
        have hfinish := Machine.Arrives.finishLoading flag m₂ plan.requiredConstants
        rw [hfinished] at hfinish
        have harrives := (hunits leaves).trans hfinish
        exact ⟨hentered.trans harrives.comes,
          harrives.switched nofun (Machine.loaded_of_finishLoading hfinished)⟩

end CodeLoader

-- ============================================================= after the load

/-- A machine whose globals were operated on. -/
def Machine.afterOperations (m : Machine) (ops : List (GlobalOperation HostState)) : Machine :=
  { m with globals := ops.foldl GlobalOperation.act m.globals }

/-- In every state that operations on globals lead to once the core library is
loaded, a flag is what each name says that led to the flag's global at the end
of the load and was not moved since; its own name is one of them. -/
theorem flag_agrees_of_loaded {σ : Type u} {υ : Type v} {code : CodeLoader σ υ}
    {sources : SourceLoader σ} {plan : LoadPlan} {s s' : σ} {options : Options}
    {config : NativeConfiguration} {files : FileTree} {idle loaded : Machine} {name : String}
    {ops : List (GlobalOperation HostState)}
    (started : Machine.start options config files = .ok m) (before : m.Comes flag idle)
    (done : code.loadCore sources plan s idle = (.ok (), s', loaded))
    (leaves : CodeLoader.LeavesName flag (code.record sources plan s idle))
    (same : loaded.globals.names.get? name = loaded.globals.names.get? flag.global)
    (along : Along GlobalOperation.act (fun t op => ¬ op.Moves t name) loaded.globals ops) :
    flag.Agrees (loaded.afterOperations ops) name := by
  have hstart : m.Bound flag := by
    intro readers h
    rw [(Machine.fresh_start started).unswitched] at h
    cases h
  have hrecorded : CodeLoader.unrecorded
      (code.recorded.loadCore sources.recorded plan (.blank s) idle) = _ :=
    CodeLoader.unrecorded_loadCore plan (.blank s) idle
  unfold CodeLoader.record at leaves
  rcases hload : code.recorded.loadCore sources.recorded plan (.blank s) idle
    with ⟨result, record, stop⟩
  rw [hload] at hrecorded leaves
  change (result, record.state, stop) = code.loadCore sources plan s idle at hrecorded
  rw [done] at hrecorded
  cases hrecorded
  obtain ⟨hcomes, hswitched⟩ := CodeLoader.comes_loadCore hload leaves
  obtain ⟨readers, hreaders⟩ := Option.isSome_iff_exists.mp hswitched
  have hbound := (before.trans hcomes).bound hstart readers hreaders
  refine Machine.agrees_of_leads hreaders ?_
  exact along.keeps (fun t op leads kept => GlobalTable.names_of_not_moves leads kept)
    (same.trans hbound)

/-- Units that put true into the global of a flag. -/
def verboseUnits : CodeLoader Unit SourceUnit where
  parse source s m := (.ok source, s, m)
  run _ _ _ s m :=
    (.ok .nil, s, { m with globals := m.globals.setInternal verboseGlobal (.bool true) })

theorem leavesName_verboseUnits (flag : Flag) (sources : SourceLoader Unit) (plan : LoadPlan)
    (m : Machine) : CodeLoader.LeavesName flag (verboseUnits.record sources plan () m) := by
  refine CodeLoader.always_record plan (fun _ _ m => ⟨.refl, rfl⟩) (fun _ _ _ _ m => ⟨?_, rfl⟩) () m
  exact .operate (.call (.setInternal verboseGlobal (.bool true))) .refl
    fun _ => GlobalTable.not_moves_setInternal verboseGlobal (.bool true)

/-- A started machine loads such units. -/
theorem exists_load_verboseUnits : ∃ m loaded,
    Machine.start .standard .empty ⟨.emptyDirectory, []⟩ = .ok m
      ∧ verboseUnits.loadCore (CodeLoader.earlySources m.coreLoadPath).loader CodeLoader.earlyPlan
        () m = (.ok (), (), loaded) := by
  have hloads : ((Machine.start .standard .empty ⟨.emptyDirectory, []⟩).toOption.all fun m =>
      (verboseUnits.loadCore (CodeLoader.earlySources m.coreLoadPath).loader CodeLoader.earlyPlan
        () m).1.isOk) = true := by
    decide +kernel
  obtain ⟨m, started⟩ := Machine.exists_start
  rw [started] at hloads
  dsimp only [Except.toOption, Option.all] at hloads
  rcases hload : verboseUnits.loadCore (CodeLoader.earlySources m.coreLoadPath).loader
    CodeLoader.earlyPlan () m with ⟨e | _, _, loaded⟩
  · rw [hload] at hloads
    cases hloads
  · exact ⟨m, loaded, started, hload⟩

/-- Hooks that read and write what the host keeps under a name. -/
def keptHooks (key : String) : Hooks HostState where
  getter := .host id fun s => .answer (.ok ((s.get? key).getD .nil))
  setter v := .host (fun s => s.set key v) fun _ => .answer (.ok ())
  defined := .answer true

/-- A flag's global gets another name, and through it hooks of the host. -/
def hookedAlias : List (GlobalOperation HostState) :=
  [.call (.addAlias "$x" verboseGlobal),
    .call (.defineHooked "$x" (keptHooks "verbosity").getter (keptHooks "verbosity").setter
      (keptHooks "verbosity").defined),
    .host fun s => s.set "verbosity" (.bool true)]

/-- After such a load and these operations all flags are their globals. -/
theorem flag_agrees_of_hookedAlias : ∃ m loaded,
    Machine.start .standard .empty ⟨.emptyDirectory, []⟩ = .ok m
      ∧ verboseUnits.loadCore (CodeLoader.earlySources m.coreLoadPath).loader CodeLoader.earlyPlan
        () m = (.ok (), (), loaded)
      ∧ ∀ flag : Flag, flag.Agrees (loaded.afterOperations hookedAlias) flag.global := by
  obtain ⟨m, loaded, started, done⟩ := exists_load_verboseUnits
  refine ⟨m, loaded, started, done, fun flag => ?_⟩
  refine flag_agrees_of_loaded started .refl done (leavesName_verboseUnits flag _ _ m) rfl ?_
  have hname : "$x" ≠ flag.global := by
    cases flag <;> decide
  exact ⟨GlobalTable.not_moves_addAlias hname,
    GlobalTable.not_moves_defineHooked "$x" (keptHooks "verbosity"), GlobalTable.not_moves_host _,
    trivial⟩

/-- An alias that gives a flag's own name to another storage. -/
def reboundVerbose : List (GlobalOperation HostState) :=
  [.call (.set "$x" (.bool true)), .call (.addAlias verboseGlobal "$x")]

/-- After it the flag is not what its global says. -/
theorem verbosity_ne_global_of_reboundVerbose : ∃ m seen loaded,
    Machine.start .standard .empty ⟨.emptyDirectory, []⟩ = .ok m
      ∧ Script.loader.loadCore (CodeLoader.middleSources m.coreLoadPath) CodeLoader.middlePlan [] m
        = (.ok (), seen, loaded)
      ∧ (loaded.afterOperations reboundVerbose).verbosity.1
          ≠ ((loaded.afterOperations reboundVerbose).globalOrNil verboseGlobal).1 := by
  have hdiffers : ((Machine.start .standard .empty ⟨.emptyDirectory, []⟩).toOption.all fun m =>
      let loaded := (Script.loader.loadCore (CodeLoader.middleSources m.coreLoadPath)
        CodeLoader.middlePlan [] m).2.2.afterOperations reboundVerbose
      decide (loaded.verbosity.1 ≠ (loaded.globalOrNil verboseGlobal).1)) = true := by
    decide +kernel
  obtain ⟨m, seen, loaded, started, done⟩ := CodeLoader.exists_load_middlePlan
  refine ⟨m, seen, loaded, started, done, ?_⟩
  rw [started] at hdiffers
  dsimp only [Except.toOption, Option.all] at hdiffers
  rw [done] at hdiffers
  exact of_decide_eq_true hdiffers

end ObjectModel
