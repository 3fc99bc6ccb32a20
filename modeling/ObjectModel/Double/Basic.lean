/-
Binary64 numbers by their bits.

A number is its 64 bits, so two NaNs with different payloads are different
numbers, and equality of numbers is decidable. Arithmetic and the numeric
order are those of IEEE 754; the one thing the standard leaves open, which
NaN an operation answers, is fixed here: a NaN operand is handed on, the left
one first, with its quiet bit set, and an invalid operation on two numbers
answers the quiet NaN with the sign bit set.
-/

namespace ObjectModel

/-- An IEEE 754 binary64 datum. -/
structure Double where
  bits : UInt64
deriving DecidableEq, Inhabited

namespace Double

-- ====================================================== the three fields

/-- The sign bit. -/
def negative (x : Double) : Bool :=
  x.bits >>> 63 != 0

/-- The eleven exponent bits. -/
def exponentField (x : Double) : Nat :=
  ((x.bits >>> 52) &&& 0x7ff).toNat

/-- The fifty-two fraction bits. -/
def fractionField (x : Double) : Nat :=
  (x.bits &&& 0xfffffffffffff).toNat

def isNaN (x : Double) : Bool :=
  x.exponentField == 0x7ff && x.fractionField != 0

def isInfinite (x : Double) : Bool :=
  x.exponentField == 0x7ff && x.fractionField == 0

def isZero (x : Double) : Bool :=
  x.exponentField == 0 && x.fractionField == 0

/-- The integer `m` of a finite number `±m · 2^e`. -/
def mantissa (x : Double) : Nat :=
  if x.exponentField = 0 then x.fractionField
  else 0x10000000000000 + x.fractionField

/-- The power `e` of a finite number `±m · 2^e`. -/
def exponent (x : Double) : Int :=
  if x.exponentField = 0 then -1074 else (x.exponentField : Int) - 1075

/-- Whether a finite number is an integer. -/
def isIntegral (x : Double) : Bool :=
  match x.exponent with
  | .ofNat _ => true
  | .negSucc n => x.mantissa % (1 <<< (n + 1)) == 0

-- ============================================================ arithmetic

def zero : Double := ⟨0⟩

/-- The NaN that an invalid operation answers. -/
def indefinite : Double := ⟨0xfff8000000000000⟩

/-- The NaN that stands for "not a number" when none was computed. -/
def nan : Double := ⟨0x7ff8000000000000⟩

/-- The same NaN with its quiet bit set. -/
def quiet (x : Double) : Double := ⟨x.bits ||| 0x8000000000000⟩

def toFloat (x : Double) : Float := Float.ofBits x.bits

def ofFloat (f : Float) : Double := ⟨f.toBits⟩

/-- An operation on two numbers, with the rule for NaNs around it. -/
def combine (op : Float → Float → Float) (x y : Double) : Double :=
  if x.isNaN then x.quiet
  else if y.isNaN then y.quiet
  else
    let r := ofFloat (op x.toFloat y.toFloat)
    if r.isNaN then indefinite else r

def add : Double → Double → Double := combine (· + ·)
def sub : Double → Double → Double := combine (· - ·)
def mul : Double → Double → Double := combine (· * ·)

/-- The number with its sign bit flipped. -/
def neg (x : Double) : Double := ⟨x.bits ^^^ 0x8000000000000000⟩

/-- The numeric order; a NaN compares with nothing, and the two zeros are
equal. -/
def compare? (x y : Double) : Option Ordering :=
  if x.toFloat < y.toFloat then some .lt
  else if y.toFloat < x.toFloat then some .gt
  else if x.toFloat == y.toFloat then some .eq
  else none

/-- Numeric equality. -/
def numEq (x y : Double) : Bool :=
  x.compare? y == some .eq

/-- The nearest double to an integer below `2^64` in magnitude. -/
def ofInt (i : Int) : Double := ofFloat (Float.ofInt i)

end Double

end ObjectModel
