/-
The command line.

Arguments are read from left to right and the first one that is out of place
ends the reading. A run starts a machine, reads the units of the core library
without running them if that is asked for, and prints the class hierarchy if
that is asked for. What a run prints and how it exits is a function of the
arguments and the files.
-/
import ObjectModel.Boot.Load

namespace ObjectModel.CommandLine

-- ============================================================= arguments

structure Arguments where
  coreLoadPath : Option String
  home : Option String
  noPatching : Bool
  verbosity : Option Verbosity
  debug : Bool
  loadCore : Bool
  dumpTypes : Bool
deriving Inhabited

def Arguments.none : Arguments := ⟨Option.none, Option.none, false, Option.none, false, false, false⟩

/-- What the arguments ask for. -/
inductive Invocation where
  | run (a : Arguments)
  | help
  | version
  | misuse

/-- An option with a value, if the name is one and it was not given before. -/
def withValue? (a : Arguments) (name value : String) : Option Arguments :=
  if name = "--core-load-path" ∧ a.coreLoadPath.isNone then
    some { a with coreLoadPath := some value }
  else if name = "--home" ∧ a.home.isNone ∧ !value.isEmpty then
    some { a with home := some value }
  else if name = "--verbosity" ∧ a.verbosity.isNone then
    match value with
    | "nil" => some { a with verbosity := some .silent }
    | "false" => some { a with verbosity := some .normal }
    | "true" => some { a with verbosity := some .verbose }
    | _ => Option.none
  else Option.none

/-- A flag, if the name is one and it was not given before. -/
def withFlag? (a : Arguments) (name : String) : Option Arguments :=
  if name = "--no-patching" ∧ !a.noPatching then some { a with noPatching := true }
  else if name = "--debug" ∧ !a.debug then some { a with debug := true }
  else if name = "--load-core" ∧ !a.loadCore then some { a with loadCore := true }
  else if name = "--dump-types" ∧ !a.dumpTypes then some { a with dumpTypes := true }
  else Option.none

/-- Whether an option of that name takes a value. -/
def takesValue (name : String) : Bool :=
  name == "--core-load-path" || name == "--home" || name == "--verbosity"

/-- Whether an argument can be the value of the option before it. -/
def isValue (arg : String) : Bool := arg == "-" || !arg.startsWith "-"

/-- The name of a long option and the value written behind an equals sign. -/
def splitValue (arg : String) : String × Option String :=
  let chars := arg.toList
  let name := chars.takeWhile (· ≠ '=')
  match chars.dropWhile (· ≠ '=') with
  | [] => (arg, Option.none)
  | _ :: value => (String.ofList name, some (String.ofList value))

/-- What an argument by itself leads to. -/
inductive Reading where
  | proceed (a : Arguments)
  /-- The option needs the next argument as its value. -/
  | expectValue (name : String)
  | stop (i : Invocation)

def readArgument (a : Arguments) (arg : String) : Reading :=
  let settle (a? : Option Arguments) : Reading :=
    match a? with
    | some a => .proceed a
    | Option.none => .stop .misuse
  if arg.startsWith "--" then
    match splitValue arg with
    | (name, some value) => settle (withValue? a name value)
    | (name, Option.none) =>
      if name = "--help" then .stop .help
      else if name = "--version" then .stop .version
      else if takesValue name then .expectValue name
      else settle (withFlag? a name)
  else
    match arg.toList with
    | '-' :: 'h' :: _ => .stop .help
    | '-' :: 'V' :: _ => .stop .version
    | _ => .stop .misuse

/-- Reads the arguments from left to right. -/
def read (a : Arguments) : List String → Invocation
  | [] => .run a
  | ["--"] => .run a
  | arg :: rest =>
    match readArgument a arg, rest with
    | .stop i, _ => i
    | .proceed a, rest => read a rest
    | .expectValue _, [] => .misuse
    | .expectValue name, value :: rest =>
      if isValue value then
        match withValue? a name value with
        | some a => read a rest
        | Option.none => .misuse
      else .misuse

def Arguments.options (a : Arguments) : Options :=
  { Options.standard with
    coreLoadPath := a.coreLoadPath.getD Options.standard.coreLoadPath
    home := a.home
    patching := !a.noPatching
    verbosity := a.verbosity.getD .normal
    debug := a.debug }

-- =========================================================== reading units

/-- Accepts every unit and runs none; counts them and their bytes. -/
def countingLoader : CodeLoader (Nat × Nat) SourceUnit where
  parse source counts m := (.ok source, counts, m)
  run unit _ _ counts m :=
    (.ok .nil, (counts.1 + 1, counts.2 + unit.text.utf8ByteSize), m)

/-- The core library's plan without its required constants. -/
def readingPlan : LoadPlan := { LoadPlan.core with requiredConstants := [] }

/-- Reads the core library; a line that tells how much there was. -/
def readCore (files : FileTree) (a : Arguments) (m : Machine) : Except BootError (String × Machine) :=
  let root := if Options.isResource m.coreLoadPath then a.home else Option.none
  match countingLoader.loadCore (Sources.disk files root).loader readingPlan (0, 0) m with
  | (.error e, _, _) => .error e
  | (.ok (), (units, bytes), m) =>
    .ok ("read " ++ toString units ++ " core units (" ++ toString bytes ++ " bytes)\n", m)

-- ============================================================== hierarchy

/-- The line of a type: its name behind its depth, and what is mixed in. -/
def typeLine (r : Registry) (depth : Nat) (t : TypeId) : String :=
  let mixed := (r.record t).includes.map r.displayName
  let indent := String.ofList (List.replicate (2 * depth) ' ')
  let suffix := if mixed.isEmpty then "" else " [" ++ ", ".intercalate mixed ++ "]"
  indent ++ r.displayName t ++ suffix ++ "\n"

/-- A class and the classes below it, through at most `fuel` levels. -/
def classLines (r : Registry) (types : List TypeId) : Nat → Nat → TypeId → String
  | 0, _, _ => ""
  | fuel + 1, depth, t =>
    let below := types.filter fun c =>
      (r.record c).kind = .classType ∧ (r.record c).superclass = some t
    typeLine r depth t ++ String.join (below.map (classLines r types fuel (depth + 1)))

/-- The classes as a tree, then the modules. -/
def hierarchy (r : Registry) : String :=
  let named := r.typeIds.filter fun t =>
    (r.record t).attached.isNone ∧ (r.record t).name.isSome
  let modules := named.filter fun t => (r.record t).kind = .moduleType
  classLines r named r.size 0 Core.basicObject ++ "\n" ++
    String.join (modules.map fun t => "module " ++ r.displayName t ++ "\n")

-- ==================================================================== runs

/-- What a run leaves behind. -/
structure Result where
  status : Nat
  output : String
  errors : String

/-- The name in front of error messages. -/
def programName : String := "garnet"

def runArguments (files : FileTree) (a : Arguments) : Except BootError String := do
  let m ← Machine.start a.options .linux files
  let (read, m) ← if a.loadCore then readCore files a m else .ok ("", m)
  pure (read ++ if a.dumpTypes then hierarchy m.registry else "")

/-- What `--version` prints. -/
def versionText : String := programName ++ " 0.1.0\n"

/-- What `--help` prints. -/
def helpText : String :=
  "Usage: garnet [OPTIONS]\n\nOptions:\n" ++
  "      --core-load-path <CORE_LOAD_PATH>\n" ++
  "          Directory or resource path holding the core library\n" ++
  "      --home <HOME>\n" ++
  "          Runtime home; also the root for resource: paths\n" ++
  "      --no-patching\n" ++
  "          Do not register library patch files\n" ++
  "      --verbosity <VERBOSITY>\n" ++
  "          Initial $VERBOSE [default: false] [possible values: nil, false, true]\n" ++
  "      --debug\n" ++
  "          Initial $DEBUG\n" ++
  "      --load-core\n" ++
  "          Read the core library units through the loader\n" ++
  "      --dump-types\n" ++
  "          Print the class hierarchy after boot\n" ++
  "  -h, --help\n" ++
  "          Print help\n" ++
  "  -V, --version\n" ++
  "          Print version\n"

/-- A run of the program. -/
def run (files : FileTree) (args : List String) : Result :=
  match read .none args with
  | .help => ⟨0, helpText, ""⟩
  | .version => ⟨0, versionText, ""⟩
  | .misuse => ⟨2, "", "usage: " ++ programName ++ " [OPTIONS]\n"⟩
  | .run a =>
    match runArguments files a with
    | .ok output => ⟨0, output, ""⟩
    | .error e => ⟨1, "", programName ++ ": " ++ e.message ++ "\n"⟩

end ObjectModel.CommandLine
