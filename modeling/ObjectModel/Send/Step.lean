/-
Sending messages.

A send looks up a method from the receiver's meta type on. A method that is
found is invoked; a foreign receiver without one gets the message in its own
protocol; any other receiver raises. Either way the send ends, or turns into
one other send: a forwarding body sends again, a foreign `__send__` sends
under the name it was given, and a foreign operator is sent to the primitive
that the receiver unboxes to. So running a send is iterating one step.

A program may forward for ever. `run` takes the number of steps it may make;
`send` gives it more steps than a run that ends can need. A run that looks its
methods up elsewhere counts its steps in the same way.

What native bodies do is a parameter: any function of the running program, the
receiver and the arguments that changes the registry by operations only. A
native body may send messages of its own; whatever it does is one step here.
-/
import ObjectModel.Core.Primitives
import ObjectModel.Registry.Operation
import ObjectModel.Send.Outgoing

namespace ObjectModel

/-- A message on its way: the receiver, the name and the arguments. -/
structure Send where
  receiver : Value
  name : String
  args : List Value
deriving DecidableEq

/-- Where one step of a send leads. -/
inductive Progress where
  | finished (outcome : Outcome)
  | resend (next : Send)
  /-- A native body goes on for ever. -/
  | endless

/-- What a native body does: its outcome and the machine afterwards, or
nothing if it goes on for ever. -/
structure Native where
  perform : Machine → Value → List Value → Option (Outcome × Machine)
  evolves : ∀ {m : Machine} {receiver : Value} {args : List Value} {outcome : Outcome}
    {m' : Machine}, perform m receiver args = some (outcome, m') →
      m.registry.Evolves m'.registry

/-- What the native bodies do, by their numbers. -/
abbrev Natives := NativeId → Native

/-- No native body does anything but go on for ever. -/
def Natives.none : Natives := fun _ =>
  { perform := fun _ _ _ => Option.none, evolves := fun h => nomatch h }

namespace Machine

variable (natives : Natives) (m : Machine)

-- =============================================================== methods

/-- What a body does. -/
def performBody (b : Body) (receiver : Value) (args : List Value) : Progress × Machine :=
  match b with
  | .primitive p =>
    let (outcome, m) := m.performPrimitive p receiver args
    (.finished outcome, m)
  | .native id =>
    match (natives id).perform m receiver args with
    | some (outcome, m) => (.finished outcome, m)
    | none => (.endless, m)
  | .answer v => (.finished (.ok v), m)
  | .argument index => (.finished (.ok (args.getD index .nil)), m)
  | .argumentCount => (.finished (.ok (.ofInt args.length)), m)
  | .receiver => (.finished (.ok receiver), m)
  | .description =>
    let (v, m) := m.newString (m.inspect receiver)
    (.finished (.ok v), m)
  | .raising message cls => (.finished (.error (m.registry.raise cls message)), m)
  | .forward name => (.resend ⟨receiver, name, args⟩, m)
  | .forwardToFirst name =>
    match args with
    | [] => (.finished (.ok .nil), m)
    | first :: rest => (.resend ⟨first, name, rest⟩, m)

/-- Invokes a method; the wrong number of arguments raises. -/
def invoke (method : Method) (receiver : Value) (args : List Value) : Progress × Machine :=
  if method.arity.accepts args.length then performBody natives m method.body receiver args
  else (.finished (.error (m.registry.argumentError args.length method.arity)), m)

-- ======================================================= foreign receivers

/-- A conversion's answer, made a value of the program. -/
def convert {α : Type} (make : Machine → α → Value × Machine) (answered : Except Raise α × Machine) :
    Outcome × Machine :=
  match answered with
  | (.ok a, m) =>
    let (v, m) := make m a
    (.ok v, m)
  | (.error e, m) => (.error e, m)

/-- The primitive that a foreign object unboxes to, as a value of the program;
nothing for an object that stands for no primitive. -/
def unbox (kind : PrimitiveKind) (f : ForeignId) : Option (Outcome × Machine) :=
  match kind with
  | .boolean => some (convert (fun m b => (.bool b, m)) (translate (m.deliver f .asBoolean)))
  | .string => some (convert newString (translate (m.deliver f .asString)))
  | .int => some (convert (fun m n => (.fixnum n, m)) (translate (m.deliver f .asInt)))
  | .long => some (convert (fun m n => (.fixnum n, m)) (translate (m.deliver f .asLong)))
  | .double => some (convert (fun m x => (.float x, m)) (translate (m.deliver f .asDouble)))
  | .other => none

/-- Ends with the answer of a foreign object. -/
def finishWith (answered : Except InteropError Value × Machine) : Progress × Machine :=
  let (outcome, m) := translate answered
  (.finished outcome, m)

/-- Sends an operator to the primitive behind a foreign object; an object
that stands for none is asked to invoke a member of that name. -/
def performOperator (kind : PrimitiveKind) (f : ForeignId) (name : String)
    (args : List Value) : Progress × Machine :=
  match m.unbox kind f with
  | some (.ok v, m) => (.resend ⟨v, name, args⟩, m)
  | some (.error e, m) => (.finished (.error e), m)
  | none => finishWith (m.deliver f (.invokeMember name args))

/-- Carries out a classified send. -/
def performOutgoing (call : OutgoingCall) (f : ForeignId) (name : String)
    (args : List Value) : Progress × Machine :=
  match call with
  | .readArrayElement =>
    let index := ((args.headD .nil).asFixnum?.getD .zero).val
    finishWith (m.deliver f (.readArrayElement index))
  | .readMember =>
    match m.nameOf (args.headD .nil) with
    | .error e => (.finished (.error e), m)
    | .ok key => finishWith (m.deliver f (.readMember key))
  | .execute => finishWith (m.deliver f (.execute args))
  | .instantiate => finishWith (m.deliver f (.instantiate args))
  | .send =>
    match m.nameOf (args.headD .nil) with
    | .error e => (.finished (.error e), m)
    | .ok message => (.resend ⟨.foreign f, message, args.tail⟩, m)
  | .operator =>
    let (kind, m) := m.primitiveKind f
    m.performOperator kind f name args
  | .writeMember =>
    let v := args.headD .nil
    match translate (m.deliver f (.writeMember (OutgoingCall.assignedMember name) v)) with
    | (.ok _, m) => (.finished (.ok v), m)
    | (.error e, m) => (.finished (.error e), m)
  | .writeMemberArity =>
    (.finished (.error (m.registry.argumentError args.length (.exactly 1))), m)
  | .readOrInvoke =>
    let (invocable, m) := m.deliver f (.isMemberInvocable name)
    if invocable then finishWith (m.deliver f (.invokeMember name []))
    else finishWith (m.deliver f (.readMember name))
  | .invokeMember => finishWith (m.deliver f (.invokeMember name args))

/-- A send to a foreign object in its own protocol. -/
def performForeign (f : ForeignId) (name : String) (args : List Value) :
    Progress × Machine :=
  m.performOutgoing (OutgoingCall.classify m.registry name args) f name args

-- ================================================================= sends

/-- Goes on with what lookup found. -/
def answerWith (method? : Option Method) (s : Send) : Progress × Machine :=
  match method?, s.receiver with
  | some method, _ => invoke natives m method s.receiver s.args
  | none, .foreign f => m.performForeign f s.name s.args
  | none, _ => (.finished (.error (m.noMethodError s.receiver s.name)), m)

/-- The method that a send finds. -/
def lookup? (receiver : Value) (name : String) : Option Method :=
  m.registry.findMethod? (m.metaType receiver) name

/-- One step of a send. -/
def step (s : Send) : Progress × Machine :=
  answerWith natives m (m.lookup? s.receiver s.name) s

/-- Iterates steps until one ends the send, at most `fuel` of them. -/
def run (m : Machine) : Nat → Send → Option (Outcome × Machine)
  | 0, _ => none
  | fuel + 1, s =>
    match step natives m s with
    | (.finished outcome, m) => some (outcome, m)
    | (.resend next, m) => run m fuel next
    | (.endless, _) => none

/-- Goes on after a step, for at most `fuel` more of them. -/
def settle (fuel : Nat) : Progress × Machine → Option (Outcome × Machine)
  | (.finished outcome, m) => some (outcome, m)
  | (.resend next, m) => run natives m fuel next
  | (.endless, _) => none

/-- Runs a send whose method has been looked up already, for at most `fuel`
steps. -/
def runFound (fuel : Nat) (method? : Option Method) (s : Send) : Option (Outcome × Machine) :=
  match fuel with
  | 0 => none
  | fuel + 1 => settle natives fuel (answerWith natives m method? s)

theorem run_eq_runFound (fuel : Nat) (s : Send) :
    run natives m fuel s = runFound natives m fuel (m.lookup? s.receiver s.name) s := by
  cases fuel with
  | zero => rfl
  | succ fuel =>
    simp only [run, runFound, step]
    generalize answerWith natives m (m.lookup? s.receiver s.name) s = p
    obtain ⟨progress, m'⟩ := p
    cases progress <;> rfl

/-- How many methods are defined. -/
def methodCount : Nat :=
  m.registry.types.foldl (fun n t => n + t.methods.size) 0

/-- More steps than a run that ends makes. Arguments only get fewer; with the
same arguments the receiver changes at most once, from a foreign object to
its primitive; with the same receiver and arguments every step is a
forwarding method, and none comes twice. -/
def stepBudget (args : List Value) : Nat := 2 * (args.length + 1) * (m.methodCount + 2)

/-- Sends a message without remembering anything; nothing if it would go on
for ever. -/
def send (s : Send) : Option (Outcome × Machine) := run natives m (m.stepBudget s.args) s

/-- Invokes a method and goes on until the send ends. -/
def callMethod (method : Method) (receiver : Value) (args : List Value) :
    Option (Outcome × Machine) :=
  settle natives (m.stepBudget args) (invoke natives m method receiver args)

/-- A send to a foreign object without lookup. -/
def sendForeign (f : ForeignId) (name : String) (args : List Value) :
    Option (Outcome × Machine) :=
  settle natives (m.stepBudget args) (m.performForeign f name args)

end Machine

end ObjectModel
