/-
Exceptions of the running program.

An exception on its way up carries its class, the name that the class had
when the exception was made, and a message. The functions here word the
exceptions of the core types, and turn refused definitions and refused foreign
messages into them.
-/
import ObjectModel.Core.Types
import ObjectModel.Foreign.Object

namespace ObjectModel

structure Raise where
  cls : TypeId
  className : String
  message : String
deriving DecidableEq

/-- The message with the class behind it. -/
def Raise.display (e : Raise) : String := e.message ++ " (" ++ e.className ++ ")"

namespace Registry

variable (r : Registry)

def raise (cls : TypeId) (message : String) : Raise := ⟨cls, r.displayName cls, message⟩

def argumentError (given : Nat) (expected : Arity) : Raise :=
  r.raise Core.argumentError
    ("wrong number of arguments (given " ++ toString given ++ ", expected " ++
      expected.text ++ ")")

def typeError (message : String) : Raise := r.raise Core.typeError message

def noImplicitConversion (source target : String) : Raise :=
  r.typeError ("no implicit conversion of " ++ source ++ " into " ++ target)

def nameError (message : String) : Raise := r.raise Core.nameError message

def noMethodError (name receiver : String) : Raise :=
  r.raise Core.noMethodError ("undefined method `" ++ name ++ "' for " ++ receiver)

def indexError (message : String) : Raise := r.raise Core.indexError message

def rangeError (message : String) : Raise := r.raise Core.rangeError message

def zeroDivisionError : Raise := r.raise Core.zeroDivisionError "divided by 0"

def unsupportedMessageError (message : String) : Raise :=
  r.raise Core.unsupportedMessageError message

def unsupportedType (reason : String) : Raise :=
  r.typeError ("unsupported type: " ++ reason)

/-- A refused definition as the program sees it. -/
def raiseOfRegistry (e : RegistryError) : Raise :=
  match e with
  | .cyclicInclude _ => r.raise Core.argumentError e.message
  | _ => r.typeError e.message

/-- A refused foreign message as the program sees it. -/
def raiseOfInterop (e : InteropError) : Raise :=
  match e with
  | .unsupportedMessage _ => r.unsupportedMessageError e.message
  | .invalidArrayIndex _ => r.indexError e.message
  | .unknownIdentifier _ => r.nameError e.message
  | .arity expected actual => r.argumentError actual (.exactly expected)
  | .unsupportedType reason => r.unsupportedType reason

end Registry

end ObjectModel
