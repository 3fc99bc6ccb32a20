/-
Sends to foreign objects.

A message of the program that a foreign object has to answer is delivered as
one of the messages that foreign objects understand. Which one, the name
decides, together with the number and the kinds of the arguments; the first
rule that fits counts.
-/
import ObjectModel.Machine.Basic
import ObjectModel.Text.Alphabetic

namespace ObjectModel

/-- How a send to a foreign object is carried out. -/
inductive OutgoingCall where
  /-- `[]` with one fixnum. -/
  | readArrayElement
  /-- `[]` with one symbol or string. -/
  | readMember
  | execute
  | instantiate
  /-- `__send__` with the name of a message: sent again under that name. -/
  | send
  /-- A name that does not start with a letter: unboxed and sent again. -/
  | operator
  /-- `name=` with one argument. -/
  | writeMember
  /-- `name=` with any other number of arguments. -/
  | writeMemberArity
  /-- No arguments: invoked if that is possible, else read. -/
  | readOrInvoke
  | invokeMember
deriving DecidableEq

namespace OutgoingCall

def name : OutgoingCall → String
  | .readArrayElement => "ReadArrayElement"
  | .readMember => "ReadMember"
  | .execute => "Execute"
  | .instantiate => "Instantiate"
  | .send => "Send"
  | .operator => "Operator"
  | .writeMember => "WriteMember"
  | .writeMemberArity => "WriteMemberArity"
  | .readOrInvoke => "ReadOrInvoke"
  | .invokeMember => "InvokeMember"

/-- A name that does not start with a letter. -/
def isOperator (name : String) : Bool :=
  match name.toList with
  | [] => false
  | c :: _ => !Text.alphabetic.contains c

/-- A name that ends in an equals sign. -/
def isAssignment (name : String) : Bool := name.toList.getLast? == some '='

/-- The member that an assignment writes: the name without the equals signs
at its end. -/
def assignedMember (name : String) : String :=
  String.ofList (name.toList.reverse.dropWhile (· == '=')).reverse

/-- Indexing by one argument, if the argument is an index or names a member. -/
def ofIndexing? (r : Registry) (name : String) (args : List Value) : Option OutgoingCall :=
  match args with
  | [arg] =>
    if name = "[]" then
      match arg with
      | .fixnum _ => some .readArrayElement
      | .symbol _ => some .readMember
      | v => if (r.textOf? v).isSome then some .readMember else none
    else none
  | _ => none

/-- The class of a send. -/
def classify (r : Registry) (name : String) (args : List Value) : OutgoingCall :=
  match ofIndexing? r name args with
  | some call => call
  | none =>
    if name = "call" then .execute
    else if name = "new" then .instantiate
    else if name = "__send__" ∧ args ≠ [] then .send
    else if isOperator name then .operator
    else if isAssignment name then
      (if args.length = 1 then .writeMember else .writeMemberArity)
    else if args = [] then .readOrInvoke
    else .invokeMember

end OutgoingCall

end ObjectModel
