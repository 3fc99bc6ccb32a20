/-
Loading the core library.

A plan lists units in order. Each unit is read, parsed and run at top level
with the main object as its receiver. The unit marked as post-boot is preceded
by the after-load hook, which checks that the core library defined what it
has to and switches the flags over to the globals, and by the move to the
loaded state; a plan without that unit does the same at its end. The first
failure ends the load.

What reads units, and what parses and runs them, is left open: a source loader
is a function and a code loader a pair of functions, and they may share a state
of their own.
-/
import ObjectModel.Boot.Start

namespace ObjectModel

-- ================================================================= plans

structure LoadPlan where
  units : List String
  postBoot : String
  requiredConstants : List String

def postBootUnit : String := "/post-boot/post-boot.rb"

/-- The units of the core library, in the order of loading. -/
def coreUnits : List String := [
  "/core/pre.rb", "/core/basic_object.rb", "/core/array.rb", "/core/channel.rb",
  "/core/configuration.rb", "/core/false.rb", "/core/gc.rb", "/core/nil.rb",
  "/core/truffle/platform.rb", "/core/string.rb", "/core/random.rb",
  "/core/truffle/kernel_operations.rb", "/core/truffle/exception_operations.rb",
  "/core/truffle/feature_loader.rb", "/core/truffle/thread_operations.rb",
  "/core/thread.rb", "/core/true.rb", "/core/type.rb", "/core/weakref.rb",
  "/core/truffle/ffi/pointer.rb", "/core/truffle/ffi/pointer_access.rb",
  "/core/truffle/ffi/pointer_extra.rb", "/core/truffle/internal.rb", "/core/kernel.rb",
  "/core/lazy_rubygems.rb", "/core/truffle/boot.rb", "/core/truffle/debug.rb",
  "/core/truffle/encoding_operations.rb", "/core/truffle/hash_operations.rb",
  "/core/truffle/numeric_operations.rb", "/core/truffle/proc_operations.rb",
  "/core/truffle/range_operations.rb", "/core/truffle/regexp_operations.rb",
  "/core/truffle/stat_operations.rb", "/core/truffle/string_operations.rb",
  "/core/truffle/backward.rb", "/core/truffle/truffleruby.rb", "/core/splitter.rb",
  "/core/stat.rb", "/core/io.rb", "/core/immediate.rb", "/core/module.rb", "/core/proc.rb",
  "/core/enumerable_helper.rb", "/core/enumerable.rb", "/core/enumerator.rb",
  "/core/argf.rb", "/core/exception.rb", "/core/hash.rb", "/core/comparable.rb",
  "/core/numeric.rb", "/core/truffle/ctype.rb", "/core/integer.rb", "/core/regexp.rb",
  "/core/transcoding.rb", "/core/encoding.rb", "/core/env.rb", "/core/errno.rb",
  "/core/file.rb", "/core/dir.rb", "/core/dir_glob.rb", "/core/file_test.rb",
  "/core/float.rb", "/core/marshal.rb", "/core/object_space.rb", "/core/range.rb",
  "/core/struct.rb", "/core/tms.rb", "/core/process.rb",
  "/core/truffle/process_operations.rb", "/core/signal.rb", "/core/symbol.rb",
  "/core/mutex.rb", "/core/throw_catch.rb", "/core/time.rb", "/core/rational.rb",
  "/core/rationalizer.rb", "/core/complex.rb", "/core/complexifier.rb", "/core/class.rb",
  "/core/binding.rb", "/core/math.rb", "/core/method.rb", "/core/unbound_method.rb",
  "/core/warning.rb", "/core/tracepoint.rb", "/core/truffle/interop.rb",
  "/core/truffle/polyglot.rb", "/core/posix.rb", "/core/main.rb", "/core/post.rb", postBootUnit]

/-- Constants that the core library has to define. -/
def requiredCoreConstants : List String := [
  "IO::EAGAINWaitReadable", "IO::EAGAINWaitWritable", "TOPLEVEL_BINDING"]

def LoadPlan.core : LoadPlan := ⟨coreUnits, postBootUnit, requiredCoreConstants⟩

-- =============================================================== sources

/-- A unit's text, with the path it was read from. -/
structure SourceUnit where
  path : String
  text : String

/-- Where units are read from. -/
inductive Sources where
  /-- Texts by their full paths. -/
  | memory (units : Bindings String)
  /-- Files; resource paths are looked for under the root. -/
  | disk (files : FileTree) (resourceRoot : Option String)

namespace Sources

/-- A path without slashes at its start. -/
def withoutLeadingSlashes (path : List Char) : List Char := path.dropWhile (· == '/')

/-- The file that a path is read from. -/
def filePath (resourceRoot : Option String) (path : String) : Except FileError String :=
  match NativeConfiguration.behind? resourceScheme.toList path.toList with
  | none => .ok path
  | some resource =>
    match resourceRoot with
    | some root => .ok (joinPath root (String.ofList (withoutLeadingSlashes resource)))
    | none => .error (.other ("no resource root for " ++ path))

def load (s : Sources) (path : String) : Except FileError SourceUnit :=
  match s with
  | .memory units =>
    match units.get? path with
    | some text => .ok ⟨path, text⟩
    | none => .error (.other (path ++ " not found"))
  | .disk files resourceRoot => do
    let file ← filePath resourceRoot path
    let text ← files.readText file
    pure ⟨path, text⟩

end Sources

-- =============================================================== loaders

universe u v

/-- Reads units by their full paths. -/
structure SourceLoader (σ : Type u) where
  load : String → σ → Except FileError SourceUnit × σ

/-- Sources that never change, beside any state. -/
def Sources.loader {σ : Type u} (sources : Sources) : SourceLoader σ :=
  ⟨fun path s => (sources.load path, s)⟩

instance {σ : Type u} : Coe Sources (SourceLoader σ) := ⟨Sources.loader⟩

/-- What code runs in: the top level, or a module wrapped around it. -/
inductive DeclarationContext where
  | topLevel
  | wrapped (t : TypeId)
deriving DecidableEq

/-- Turns a unit into something that runs, and runs it. -/
structure CodeLoader (σ : Type u) (υ : Type v) where
  parse : SourceUnit → σ → Machine → Except Raise υ × σ × Machine
  run : υ → DeclarationContext → Value → σ → Machine → Except Raise Value × σ × Machine

-- =============================================================== loading

namespace Machine

/-- Moves the machine's life forward. -/
def advance (m : Machine) (target : LifecycleState) : Except BootError Machine :=
  match m.lifecycle.advance? target with
  | some lifecycle => .ok { m with lifecycle }
  | none => .error (.illegalTransition m.lifecycle target)

/-- The first of the constants that does not resolve. -/
def missingConstant? (m : Machine) (required : List String) : Option String :=
  required.find? fun path => (m.registry.resolve? path).isNone

/-- The after-load hook. The flags are switched over only the first time. -/
def afterLoad (m : Machine) (required : List String) : Except BootError Machine :=
  match m.missingConstant? required with
  | some path => .error (.missingConstant path)
  | none =>
    let (loadPath, globals) := m.globals.reader loadPathGlobal
    let (debug, globals) := globals.reader debugGlobal
    let (verbose, globals) := globals.reader verboseGlobal
    let flags := m.flags.getD ⟨loadPath, debug, verbose⟩
    let (name, m) := { m with globals, flags := some flags }.newString "-"
    .ok { m with globals := m.globals.setInternal programNameGlobal name }

/-- The hook and the move to the loaded state. What the hook did stays done
if the move is refused. -/
def finishLoading (m : Machine) (required : List String) : Except BootError Unit × Machine :=
  match m.afterLoad required with
  | .error e => (.error e, m)
  | .ok m =>
    match m.advance .loaded with
    | .error e => (.error e, m)
    | .ok m => (.ok (), m)

end Machine

namespace CodeLoader

variable {σ : Type u} {υ : Type v} (code : CodeLoader σ υ)

/-- What a step of loading ends in, with the states afterwards. -/
abbrev Loaded (σ : Type u) := Except BootError Unit × σ × Machine

/-- Reads, parses and runs one unit. -/
def loadUnit (sources : SourceLoader σ) (path : String) (s : σ) (m : Machine) : Loaded σ :=
  match sources.load path s with
  | (.error e, s) => (.error (.file path e), s, m)
  | (.ok source, s) =>
    match code.parse source s m with
    | (.error e, s, m) => (.error (.coreLibraryRaised path e), s, m)
    | (.ok unit, s, m) =>
      match code.run unit .topLevel (.object m.mainObject) s m with
      | (.error e, s, m) => (.error (.coreLibraryRaised path e), s, m)
      | (.ok _, s, m) => (.ok (), s, m)

/-- Loads units in order; the post-boot unit is preceded by the end of
loading proper. -/
def loadUnits (sources : SourceLoader σ) (plan : LoadPlan) : List String → σ → Machine → Loaded σ
  | [], s, m => (.ok (), s, m)
  | unit :: rest, s, m =>
    let ready :=
      if unit = plan.postBoot then m.finishLoading plan.requiredConstants else (.ok (), m)
    match ready with
    | (.error e, m) => (.error e, s, m)
    | (.ok (), m) =>
      match code.loadUnit sources (m.coreLoadPath ++ unit) s m with
      | (.error e, s, m) => (.error e, s, m)
      | (.ok (), s, m) => loadUnits sources plan rest s m

/-- Loads the core library into a machine that has not loaded anything. -/
def loadCore (sources : SourceLoader σ) (plan : LoadPlan) (s : σ) (m : Machine) : Loaded σ :=
  match m.advance .loadingCoreLibrary with
  | .error e => (.error e, s, m)
  | .ok m =>
    match code.loadUnits sources plan plan.units s m with
    | (.error e, s, m) => (.error e, s, m)
    | (.ok (), s, m) =>
      if m.lifecycle = .loaded then (.ok (), s, m)
      else
        let (result, m) := m.finishLoading plan.requiredConstants
        (result, s, m)

end CodeLoader

end ObjectModel
