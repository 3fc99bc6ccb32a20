/-
The methods that the core types come with.

Integer arithmetic is exact: it is tried in 128 bits and done on big integers
where that does not suffice, and the result is a fixnum whenever it fits one.
An integer and a float make a float. Numbers compare with numbers; integers
with integers exactly, any other pair as floats.
-/
import ObjectModel.Machine.Basic

namespace ObjectModel

-- =========================================================== arithmetic

/-- The operation on integers. -/
def Arithmetic.onInt : Arithmetic → Int → Int → Int
  | .add => (· + ·)
  | .sub => (· - ·)
  | .mul => (· * ·)

/-- The operation on big integers. -/
def Arithmetic.onBignum : Arithmetic → Bignum → Bignum → Bignum
  | .add => Bignum.add
  | .sub => Bignum.sub
  | .mul => Bignum.mul

/-- The operation on floats. -/
def Arithmetic.onDouble : Arithmetic → Double → Double → Double
  | .add => Double.add
  | .sub => Double.sub
  | .mul => Double.mul

/-- The operation on words of 128 bits, if the result fits one. -/
def Arithmetic.onWords? (op : Arithmetic) (x y : Int) : Option Int :=
  let z := op.onInt x y
  if -(Bignum.word128Bound : Int) ≤ z ∧ z < Bignum.word128Bound then some z else none

/-- Whether an order is the one asked for. -/
def Relation.accepts : Relation → Ordering → Bool
  | .equal, o => o == .eq
  | .less, o => o == .lt
  | .greater, o => o == .gt

namespace Machine

variable (m : Machine)

/-- Arithmetic between two integers in any form, in words if both fit and the
result does, else on big integers. -/
def integerResult? (op : Arithmetic) (x y : Value) : Option Value :=
  let words : Option Value :=
    match x.asWord128?, y.asWord128? with
    | some a, some b => (op.onWords? a b).map Value.ofInt
    | _, _ => none
  match words with
  | some v => some v
  | none =>
    match x.asBignum?, y.asBignum? with
    | some a, some b => some (Value.ofBignum (op.onBignum a b))
    | _, _ => none

/-- Arithmetic of an integer receiver with any value. -/
def integerArithmetic (op : Arithmetic) (receiver other : Value) : Outcome :=
  match other with
  | .fixnum _ | .bignum _ =>
    match integerResult? op receiver other with
    | some v => .ok v
    | none => .error (m.coercionError receiver "Integer")
  | .float y =>
    match receiver.asDouble? with
    | some x => .ok (.float (op.onDouble x y))
    | none => .error (m.coercionError receiver "Float")
  | _ => .error (m.coercionError other "Integer")

/-- Arithmetic of a float receiver with any number. -/
def floatArithmetic (op : Arithmetic) (receiver other : Value) : Outcome :=
  match other.asDouble? with
  | some y => .ok (.float (op.onDouble (receiver.asFloat?.getD .zero) y))
  | none => .error (m.coercionError other "Float")

-- =========================================================== comparison

/-- The order of two numbers; nothing if one is no number, or a NaN. -/
def compareNumbers? (x y : Value) : Option Ordering :=
  match x, y with
  | .fixnum a, .fixnum b => some (compare a.val b.val)
  | .fixnum _, .bignum _ | .bignum _, .fixnum _ | .bignum _, .bignum _ =>
    match x.asBignum?, y.asBignum? with
    | some a, some b => some (a.cmp b)
    | _, _ => none
  | _, _ =>
    match x.asDouble?, y.asDouble? with
    | some a, some b => a.compare? b
    | _, _ => none

def numbersEqual (x y : Value) : Bool := compareNumbers? x y == some .eq

/-- An order asked of a number. A NaN on the right answers false; what cannot
be compared is an error. -/
def numericRelation (rel : Relation) (receiver other : Value) : Outcome :=
  match compareNumbers? receiver other, other with
  | some o, _ => .ok (.bool (rel.accepts o))
  | none, .float _ => .ok (.bool false)
  | none, _ =>
    .error (m.registry.raise Core.argumentError
      ("comparison of " ++ m.className receiver ++ " with " ++ m.inspect other ++
        " failed"))

-- ============================================================== strings

/-- The texts of two strings as one new string. -/
def concatenate (receiver other : Value) : Outcome × Machine :=
  match m.registry.textOf? other with
  | none => (.error (m.registry.noImplicitConversion (m.className other) "String"), m)
  | some right =>
    let (v, m) := m.newString ((m.registry.textOf? receiver).getD "" ++ right)
    (.ok v, m)

/-- Whether both are strings with the same text. -/
def sameText (x y : Value) : Bool :=
  match m.registry.textOf? x, m.registry.textOf? y with
  | some a, some b => a == b
  | _, _ => false

/-- Whether sending a name would find a method. -/
def respondsTo (receiver nameValue : Value) : Outcome :=
  match m.nameOf nameValue with
  | .error e => .error e
  | .ok name => .ok (.bool (m.registry.findMethod? (m.metaType receiver) name).isSome)

/-- What a primitive answers; the first argument is nil if there is none. -/
def performPrimitive (p : Primitive) (receiver : Value) (args : List Value) :
    Outcome × Machine :=
  let argument := args.headD .nil
  match p with
  | .integer op => (m.integerArithmetic op receiver argument, m)
  | .float op => (m.floatArithmetic op receiver argument, m)
  | .numberEqual => (.ok (.bool (numbersEqual receiver argument)), m)
  | .numberOrder rel => (m.numericRelation rel receiver argument, m)
  | .concatenate => m.concatenate receiver argument
  | .textEqual => (.ok (.bool (m.sameText receiver argument)), m)
  | .textSize =>
    let size := ((m.registry.textOf? receiver).map String.length).getD 0
    (.ok (.ofInt size), m)
  | .conjunction left => (.ok (.bool (left && argument.isTruthy)), m)
  | .disjunction left => (.ok (.bool (left || argument.isTruthy)), m)
  | .negation => (.ok (.bool !receiver.isTruthy), m)
  | .identity => (.ok (.bool (receiver.identical argument)), m)
  | .constant answer => (.ok (.bool answer), m)
  | .newText text =>
    let (v, m) := m.newString text
    (.ok v, m)
  | .logicalClass => (.ok (m.registry.typeValue (m.logicalType receiver)), m)
  | .respondsTo => (m.respondsTo receiver argument, m)

end Machine

namespace Core

/-- A primitive in the table of the type it belongs to. -/
structure PrimitiveMethod where
  owner : TypeId
  name : String
  arity : Arity
  primitive : Primitive

/-- The methods of the core types, in the order of definition. -/
def primitives : List PrimitiveMethod := [
  ⟨integer, "+", .exactly 1, .integer .add⟩,
  ⟨integer, "-", .exactly 1, .integer .sub⟩,
  ⟨integer, "*", .exactly 1, .integer .mul⟩,
  ⟨integer, "==", .exactly 1, .numberEqual⟩,
  ⟨integer, "<", .exactly 1, .numberOrder .less⟩,
  ⟨integer, ">", .exactly 1, .numberOrder .greater⟩,
  ⟨float, "+", .exactly 1, .float .add⟩,
  ⟨float, "-", .exactly 1, .float .sub⟩,
  ⟨float, "*", .exactly 1, .float .mul⟩,
  ⟨float, "==", .exactly 1, .numberEqual⟩,
  ⟨float, "<", .exactly 1, .numberOrder .less⟩,
  ⟨float, ">", .exactly 1, .numberOrder .greater⟩,
  ⟨string, "+", .exactly 1, .concatenate⟩,
  ⟨string, "==", .exactly 1, .textEqual⟩,
  ⟨string, "size", .exactly 0, .textSize⟩,
  ⟨trueClass, "&", .exactly 1, .conjunction true⟩,
  ⟨trueClass, "|", .exactly 1, .disjunction true⟩,
  ⟨falseClass, "&", .exactly 1, .conjunction false⟩,
  ⟨falseClass, "|", .exactly 1, .disjunction false⟩,
  ⟨basicObject, "!", .exactly 0, .negation⟩,
  ⟨basicObject, "==", .exactly 1, .identity⟩,
  ⟨nilClass, "nil?", .exactly 0, .constant true⟩,
  ⟨nilClass, "to_s", .exactly 0, .newText ""⟩,
  ⟨kernel, "class", .exactly 0, .logicalClass⟩,
  ⟨kernel, "equal?", .exactly 1, .identity⟩,
  ⟨kernel, "nil?", .exactly 0, .constant false⟩,
  ⟨kernel, "respond_to?", .exactly 1, .respondsTo⟩]

/-- The registry with the primitives in their types' tables. -/
def installPrimitives (r : Registry) : Registry :=
  primitives.foldl (fun r p => r.defineMethod p.owner p.name p.arity (.primitive p.primitive)) r

end Core

end ObjectModel
