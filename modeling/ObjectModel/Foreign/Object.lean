/-
Objects of other runtimes.

A foreign object is sent messages: to read, write and invoke what it has, to
say which primitive it may stand for, and to convert itself to one. How it
answers is its own affair: its behaviour is a function of what it has stored, and
a message may change what it stores. Every message that it does not know is
refused by name, and every question that it does not know is answered no.
-/
import ObjectModel.Bindings
import ObjectModel.Value

namespace ObjectModel

/-- Why a foreign object refuses a message. -/
inductive InteropError where
  | unsupportedMessage (message : String)
  | invalidArrayIndex (index : Int)
  | unknownIdentifier (name : String)
  | arity (expected actual : Nat)
  | unsupportedType (reason : String)
deriving DecidableEq

def InteropError.message : InteropError → String
  | .unsupportedMessage message => "message not supported: " ++ message
  | .invalidArrayIndex index => "invalid array index " ++ toString index
  | .unknownIdentifier name => "unknown identifier " ++ name
  | .arity expected actual =>
    "arity error: expected " ++ toString expected ++ ", got " ++ toString actual
  | .unsupportedType reason => "unsupported type: " ++ reason

/-- What a foreign object can be sent. -/
inductive Message where
  | readArrayElement (index : Int)
  | readMember (name : String)
  | writeMember (name : String) (value : Value)
  | isMemberInvocable (name : String)
  | invokeMember (name : String) (args : List Value)
  | instantiate (args : List Value)
  | execute (args : List Value)
  | isBoolean
  | asBoolean
  | isString
  | asString
  | isNumber
  | fitsInInt
  | fitsInLong
  | fitsInDouble
  | asInt
  | asLong
  | asDouble
deriving DecidableEq

namespace Message

/-- The name of the message in the protocol. -/
def selector : Message → String
  | .readArrayElement _ => "readArrayElement"
  | .readMember _ => "readMember"
  | .writeMember _ _ => "writeMember"
  | .isMemberInvocable _ => "isMemberInvocable"
  | .invokeMember _ _ => "invokeMember"
  | .instantiate _ => "instantiate"
  | .execute _ => "execute"
  | .isBoolean => "isBoolean"
  | .asBoolean => "asBoolean"
  | .isString => "isString"
  | .asString => "asString"
  | .isNumber => "isNumber"
  | .fitsInInt => "fitsInInt"
  | .fitsInLong => "fitsInLong"
  | .fitsInDouble => "fitsInDouble"
  | .asInt => "asInt"
  | .asLong => "asLong"
  | .asDouble => "asDouble"

/-- One line that tells the message and what it was about. -/
def describe (m : Message) : String :=
  match m with
  | .readArrayElement index => m.selector ++ " " ++ toString index
  | .readMember name | .writeMember name _ | .isMemberInvocable name => m.selector ++ " " ++ name
  | .invokeMember name args => m.selector ++ " " ++ name ++ "/" ++ toString args.length
  | .instantiate args | .execute args => m.selector ++ "/" ++ toString args.length
  | _ => m.selector

/-- What a message is answered with. -/
abbrev Reply : Message → Type
  | .isMemberInvocable _ | .isBoolean | .isString | .isNumber => Bool
  | .fitsInInt | .fitsInLong | .fitsInDouble => Bool
  | .asBoolean => Except InteropError Bool
  | .asString => Except InteropError String
  | .asInt | .asLong => Except InteropError Fixnum
  | .asDouble => Except InteropError Double
  | .writeMember _ _ => Except InteropError Unit
  | .readArrayElement _ | .readMember _ | .invokeMember _ _ => Except InteropError Value
  | .instantiate _ | .execute _ => Except InteropError Value

/-- The answer of an object that does not know the message. -/
def unknown : (m : Message) → m.Reply
  | .isMemberInvocable _ | .isBoolean | .isString | .isNumber => false
  | .fitsInInt | .fitsInLong | .fitsInDouble => false
  | .asBoolean => .error (.unsupportedMessage asBoolean.selector)
  | .asString => .error (.unsupportedMessage asString.selector)
  | .asInt => .error (.unsupportedMessage asInt.selector)
  | .asLong => .error (.unsupportedMessage asLong.selector)
  | .asDouble => .error (.unsupportedMessage asDouble.selector)
  | .writeMember name v => .error (.unsupportedMessage (writeMember name v).selector)
  | .readArrayElement index => .error (.unsupportedMessage (readArrayElement index).selector)
  | .readMember name => .error (.unsupportedMessage (readMember name).selector)
  | .invokeMember name args => .error (.unsupportedMessage (invokeMember name args).selector)
  | .instantiate args => .error (.unsupportedMessage (instantiate args).selector)
  | .execute args => .error (.unsupportedMessage (execute args).selector)

end Message

/-- The primitive a foreign object is unboxed to. -/
inductive PrimitiveKind where
  | boolean | string | int | long | double | other
deriving DecidableEq

def PrimitiveKind.name : PrimitiveKind → String
  | .boolean => "Boolean"
  | .string => "String"
  | .int => "Int"
  | .long => "Long"
  | .double => "Double"
  | .other => "Other"

/-- A foreign object: what it has stored, and how it behaves in terms of
that. -/
structure ForeignObject where
  members : Bindings Value
  /-- The answer to a message, and what is stored afterwards. -/
  receive : Bindings Value → (m : Message) → m.Reply × Bindings Value

namespace ForeignObject

/-- An object that understands nothing. -/
def opaqueObject : ForeignObject where
  members := .empty
  receive stored m := (m.unknown, stored)

instance : Inhabited ForeignObject := ⟨opaqueObject⟩

end ForeignObject

end ObjectModel
