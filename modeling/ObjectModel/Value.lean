/-
Values.

A value is an immediate (nil, a boolean, a small or big integer, a number, a
symbol) or a reference: to a heap object of the runtime or to a foreign
object. Integers that fit 64 bits are written as fixnums by every operation
of the runtime, but the big form of a small integer is a value too.
-/
import ObjectModel.Bignum.Numeral
import ObjectModel.Symbol

namespace ObjectModel

/-- A class or module, by its place in the registry. -/
structure TypeId where
  index : Nat
deriving DecidableEq, Inhabited

/-- A heap object, by its place on the heap. -/
structure ObjectId where
  index : Nat
deriving DecidableEq, Inhabited

/-- An object of another runtime, by the order of arrival. -/
structure ForeignId where
  index : Nat
deriving DecidableEq, Inhabited

/-- An integer of 64 bits, from `-2^63` to `2^63 - 1`. -/
structure Fixnum where
  val : Int
  lower : -9223372036854775808 ≤ val := by decide
  upper : val < 9223372036854775808 := by decide
deriving DecidableEq

namespace Fixnum

/-- The fixnum of an integer that fits. -/
def ofInt? (i : Int) : Option Fixnum :=
  if h : -9223372036854775808 ≤ i ∧ i < 9223372036854775808 then some ⟨i, h.1, h.2⟩ else none

def zero : Fixnum := ⟨0, by decide, by decide⟩

instance : Inhabited Fixnum := ⟨zero⟩

end Fixnum

inductive Value where
  | nil
  | bool (b : Bool)
  | fixnum (n : Fixnum)
  | bignum (n : Bignum)
  | float (x : Double)
  | symbol (s : Symbol)
  | object (o : ObjectId)
  | foreign (f : ForeignId)
deriving DecidableEq, Inhabited

/-- The coarse kind of a value, all that a cheap guard looks at. -/
inductive ValueKind where
  | nil | true | false | fixnum | bignum | float | symbol | object | foreign
deriving DecidableEq

def ValueKind.name : ValueKind → String
  | .nil => "Nil"
  | .true => "True"
  | .false => "False"
  | .fixnum => "Fixnum"
  | .bignum => "Bignum"
  | .float => "Float"
  | .symbol => "Symbol"
  | .object => "Object"
  | .foreign => "Foreign"

namespace Value

def kind : Value → ValueKind
  | .nil => .nil
  | .bool true => .true
  | .bool false => .false
  | .fixnum _ => .fixnum
  | .bignum _ => .bignum
  | .float _ => .float
  | .symbol _ => .symbol
  | .object _ => .object
  | .foreign _ => .foreign

def isNil : Value → Bool
  | .nil => true
  | _ => false

/-- All but nil and false. -/
def isTruthy : Value → Bool
  | .nil | .bool false => false
  | _ => true

-- ============================================================== integers

/-- An integer as a value: a fixnum if it fits, else a bignum. -/
def ofInt (i : Int) : Value :=
  match Fixnum.ofInt? i with
  | some n => .fixnum n
  | none => .bignum (Bignum.ofInt i)

/-- A bignum as a value: a fixnum if it fits. -/
def ofBignum (b : Bignum) : Value :=
  match b.toWord128?.bind Fixnum.ofInt? with
  | some n => .fixnum n
  | none => .bignum b

def asFixnum? : Value → Option Fixnum
  | .fixnum n => some n
  | _ => none

/-- The integer of a fixnum, or of a bignum that fits 128 bits. -/
def asWord128? : Value → Option Int
  | .fixnum n => some n.val
  | .bignum b => b.toWord128?
  | _ => none

/-- The big form of an integer. -/
def asBignum? : Value → Option Bignum
  | .fixnum n => some (Bignum.ofInt n.val)
  | .bignum b => some b
  | _ => none

-- =============================================================== numbers

/-- Any number as a double, perhaps rounded. -/
def asDouble? : Value → Option Double
  | .fixnum n => some (Double.ofInt n.val)
  | .bignum b => some b.toDouble
  | .float x => some x
  | _ => none

def asFloat? : Value → Option Double
  | .float x => some x
  | _ => none

def asSymbol? : Value → Option Symbol
  | .symbol s => some s
  | _ => none

def asObject? : Value → Option ObjectId
  | .object o => some o
  | _ => none

-- ============================================================== equality

/-- Equality as numbers and names: NaN differs from itself and the two zeros
are equal; references are equal if they are the same. -/
def equal : Value → Value → Bool
  | .float x, .float y => x.numEq y
  | a, b => a == b

/-- Identity: the same reference, or the same immediate bit for bit. -/
def identical (a b : Value) : Bool := a == b

end Value

end ObjectModel
