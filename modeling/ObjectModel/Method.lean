/-
Methods.

A method belongs to the type that defines it, checks how many arguments it is
given, and has a body. Bodies are data: the primitives of the core types, the
handful of forms that scripts define methods with, and the native bodies that
an embedder brings along, each known here by its number alone. Two of the
forms send another message instead of answering by themselves; what a body
does to the running program is said where messages are sent.
-/
import ObjectModel.Value

namespace ObjectModel

/-- How many arguments a method takes. -/
inductive Arity where
  | exactly (n : Nat)
  | atLeast (n : Nat)
deriving DecidableEq

namespace Arity

def accepts : Arity → Nat → Bool
  | .exactly n, given => given == n
  | .atLeast n, given => n ≤ given

/-- The number, with a plus sign if more are welcome. -/
def text : Arity → String
  | .exactly n => toString n
  | .atLeast n => toString n ++ "+"

end Arity

/-- The arithmetic that integers and floats share. -/
inductive Arithmetic where
  | add | sub | mul
deriving DecidableEq

/-- The relations that integers and floats share. -/
inductive Relation where
  | equal | less | greater
deriving DecidableEq

/-- Bodies that the core types come with. -/
inductive Primitive where
  | integer (op : Arithmetic)
  | float (op : Arithmetic)
  /-- Equality of numbers: never an error. -/
  | numberEqual
  /-- Order of numbers: what is not a number is an error. -/
  | numberOrder (rel : Relation)
  | concatenate
  | textEqual
  | textSize
  /-- The conjunction of a known boolean with the argument. -/
  | conjunction (left : Bool)
  /-- The disjunction of a known boolean with the argument. -/
  | disjunction (left : Bool)
  | negation
  | identity
  /-- Answers a boolean, whatever the receiver. -/
  | constant (answer : Bool)
  /-- A new string with a fixed text. -/
  | newText (text : String)
  | logicalClass
  | respondsTo
deriving DecidableEq

/-- A body that an embedder brings along, by its number. -/
structure NativeId where
  index : Nat
deriving DecidableEq, Inhabited

/-- What a method does. -/
inductive Body where
  | primitive (p : Primitive)
  | native (id : NativeId)
  /-- Answers a fixed value. -/
  | answer (v : Value)
  /-- Answers an argument, or nil if it was not given. -/
  | argument (index : Nat)
  | argumentCount
  | receiver
  /-- Answers a new string with the receiver's description. -/
  | description
  | raising (message : String) (cls : TypeId)
  /-- Sends another message to the receiver, with the same arguments. -/
  | forward (name : String)
  /-- Sends a message to the first argument, with the other arguments; nil
  without arguments. -/
  | forwardToFirst (name : String)
deriving DecidableEq

/-- A method as it stands in the table of the type that defines it. -/
structure Method where
  name : String
  owner : TypeId
  arity : Arity
  body : Body
deriving DecidableEq

end ObjectModel
