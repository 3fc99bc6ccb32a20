/-
Foreign objects from a description.

A script says which messages an object understands: an array of elements,
named members that can be read and written, members that can be invoked, and
what executing and instantiating answer. A message without an entry in the
script is refused, and a message with an entry among the `faults` always
fails in the way stated there.
-/
import ObjectModel.Foreign.Object

namespace ObjectModel

/-- What an invocation answers. -/
inductive ScriptedReply where
  | answer (v : Value)
  /-- One of the arguments, or nil if it was not given. -/
  | argument (index : Nat)
  | argumentCount

def ScriptedReply.value : ScriptedReply → List Value → Value
  | .answer v, _ => v
  | .argument index, args => args.getD index .nil
  | .argumentCount, args => .ofInt args.length

/-- The description of a foreign object. -/
structure ForeignScript where
  array : Option (List Value)
  members : Option (Bindings Value)
  invocable : Option (Bindings ScriptedReply)
  execute : Option ScriptedReply
  instantiate : Option ScriptedReply
  /-- The number of arguments that every invocation insists on. -/
  arity : Option Nat
  isBoolean : Bool
  isString : Bool
  isNumber : Bool
  fitsInInt : Bool
  fitsInLong : Bool
  fitsInDouble : Bool
  asBoolean : Option Bool
  asString : Option String
  asInt : Option Fixnum
  asLong : Option Fixnum
  asDouble : Option Double
  /-- Messages that always fail, by their names. -/
  faults : Bindings InteropError

namespace ForeignScript

variable (s : ForeignScript)

/-- A conversion with a stated result, unless it is made to fail. -/
def conversion {α : Type} (m : Message) (result : Option α) : Except InteropError α :=
  match s.faults.get? m.selector, result with
  | some fault, _ => .error fault
  | none, some a => .ok a
  | none, none => .error (.unsupportedMessage m.selector)

/-- The answer of an invocation, if the number of arguments is right. -/
def invoke (reply : Except InteropError ScriptedReply) (args : List Value) :
    Except InteropError Value :=
  match s.arity with
  | some expected =>
    if args.length = expected then reply.map (·.value args)
    else .error (.arity expected args.length)
  | none => reply.map (·.value args)

/-- The answer to a message, unless it is made to fail. -/
def unlessFaulty (m : Message) {α : Type} (stored : Bindings Value)
    (answered : Except InteropError α × Bindings Value) :
    Except InteropError α × Bindings Value :=
  match s.faults.get? m.selector with
  | some fault => (.error fault, stored)
  | none => answered

def readElement (index : Int) : Except InteropError Value :=
  match s.array, index with
  | none, _ => (Message.readArrayElement index).unknown
  | some elements, .ofNat n =>
    match elements[n]? with
    | some v => .ok v
    | none => .error (.invalidArrayIndex index)
  | some _, .negSucc _ => .error (.invalidArrayIndex index)

def readMember (stored : Bindings Value) (name : String) : Except InteropError Value :=
  if s.members.isNone then (Message.readMember name).unknown
  else
    match stored.get? name with
    | some v => .ok v
    | none => .error (.unknownIdentifier name)

def writeMember (stored : Bindings Value) (name : String) (v : Value) :
    Except InteropError Unit × Bindings Value :=
  if s.members.isNone then ((Message.writeMember name v).unknown, stored)
  else (.ok (), stored.set name v)

def invokeMember (name : String) (args : List Value) : Except InteropError Value :=
  match s.invocable with
  | none => (Message.invokeMember name args).unknown
  | some replies =>
    match replies.get? name with
    | some reply => s.invoke (.ok reply) args
    | none => s.invoke (.error (.unknownIdentifier name)) args

/-- The object that behaves as the script says. -/
def object : ForeignObject where
  members := s.members.getD .empty
  receive stored m :=
    match m with
    | .isBoolean => (s.isBoolean, stored)
    | .isString => (s.isString, stored)
    | .isNumber => (s.isNumber, stored)
    | .fitsInInt => (s.fitsInInt, stored)
    | .fitsInLong => (s.fitsInLong, stored)
    | .fitsInDouble => (s.fitsInDouble, stored)
    | .asBoolean => (s.conversion .asBoolean s.asBoolean, stored)
    | .asString => (s.conversion .asString s.asString, stored)
    | .asInt => (s.conversion .asInt s.asInt, stored)
    | .asLong => (s.conversion .asLong s.asLong, stored)
    | .asDouble => (s.conversion .asDouble s.asDouble, stored)
    | .isMemberInvocable name => (s.invocable.any (·.contains name), stored)
    | .readArrayElement index => s.unlessFaulty m stored (s.readElement index, stored)
    | .readMember name => s.unlessFaulty m stored (s.readMember stored name, stored)
    | .writeMember name v => s.unlessFaulty m stored (s.writeMember stored name v)
    | .invokeMember name args => s.unlessFaulty m stored (s.invokeMember name args, stored)
    | .instantiate args =>
      match s.instantiate with
      | some reply => s.unlessFaulty m stored (s.invoke (.ok reply) args, stored)
      | none => s.unlessFaulty m stored ((Message.instantiate args).unknown, stored)
    | .execute args =>
      match s.execute with
      | some reply => s.unlessFaulty m stored (s.invoke (.ok reply) args, stored)
      | none => s.unlessFaulty m stored ((Message.execute args).unknown, stored)

end ForeignScript

end ObjectModel
