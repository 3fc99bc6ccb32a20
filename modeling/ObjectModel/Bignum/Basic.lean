/-
Integers of any size, by sign and limbs.

A magnitude is a list of 32-bit limbs, the least significant first. Sums,
differences and products run over the limbs in 64-bit words, which hold every
intermediate result: `limb · limb + limb + limb` is at most `2^64 - 1`. A
number in normal form has no zero limb at the end and a zero is not negative,
so equal numbers have equal representations.

`toInt` is the number that a representation denotes; `ofInt` writes a number
down in normal form.
-/

namespace ObjectModel

/-- An integer as a sign and base `2^32` limbs. -/
structure Bignum where
  negative : Bool
  limbs : List UInt32
deriving DecidableEq, Inhabited

namespace Bignum

-- ============================================================ magnitudes

/-- The natural number that limbs denote in base `2^32`. -/
def magnitude : List UInt32 → Nat
  | [] => 0
  | limb :: rest => limb.toNat + 4294967296 * magnitude rest

/-- The limbs of a natural number. -/
def limbsOf (n : Nat) : List UInt32 :=
  if n = 0 then [] else n.toUInt32 :: limbsOf (n / 4294967296)
termination_by n

/-- The limbs without the zeros at the significant end. -/
def trim : List UInt32 → List UInt32
  | [] => []
  | limb :: rest =>
    match trim rest with
    | [] => if limb = 0 then [] else [limb]
    | kept => limb :: kept

/-- Limbs of equal length, the most significant deciding first. -/
def compareLimbs : List UInt32 → List UInt32 → Ordering
  | a :: as, b :: bs => (compareLimbs as bs).then (compare a b)
  | _, _ => .eq

/-- The order of magnitudes: more limbs first, then the limbs. -/
def compareMagnitudes (a b : List UInt32) : Ordering :=
  (compare a.length b.length).then (compareLimbs a b)

/-- A carry walking into limbs. -/
def addCarry : List UInt32 → UInt64 → List UInt32
  | [], carry => if carry = 0 then [] else [carry.toUInt32]
  | a :: as, carry =>
    let sum := a.toUInt64 + carry
    sum.toUInt32 :: addCarry as (sum >>> 32)

/-- The sum of two magnitudes and a carry. -/
def addLimbs : List UInt32 → List UInt32 → UInt64 → List UInt32
  | [], bs, carry => addCarry bs carry
  | as, [], carry => addCarry as carry
  | a :: as, b :: bs, carry =>
    let sum := a.toUInt64 + b.toUInt64 + carry
    sum.toUInt32 :: addLimbs as bs (sum >>> 32)

/-- The difference of two magnitudes, the first not the smaller one. -/
def subLimbs : List UInt32 → List UInt32 → Bool → List UInt32
  | [], _, _ => []
  | a :: as, bs, borrow =>
    let b := bs.headD 0
    let lent : UInt32 := if borrow then 1 else 0
    let part := a - b
    (part - lent) :: subLimbs as bs.tail (a < b || part < lent)

/-- One limb times a magnitude, plus the digits of `window`, plus a carry. -/
def mulRow (a : UInt32) : List UInt32 → List UInt32 → UInt64 → List UInt32
  | [], _, carry => [carry.toUInt32]
  | b :: bs, window, carry =>
    let acc := (window.headD 0).toUInt64 + a.toUInt64 * b.toUInt64 + carry
    acc.toUInt32 :: mulRow a bs window.tail (acc >>> 32)

/-- The product of two magnitudes, row by row; `window` holds the digits
that later rows still add to. -/
def mulLimbs : List UInt32 → List UInt32 → List UInt32 → List UInt32
  | [], _, window => window
  | a :: as, bs, window =>
    match mulRow a bs window 0 with
    | [] => []
    | digit :: window => digit :: mulLimbs as bs window

-- ============================================================== integers

/-- The integer that a representation denotes. -/
def toInt (x : Bignum) : Int :=
  if x.negative then -(magnitude x.limbs : Int) else magnitude x.limbs

/-- The normal form of an integer. -/
def ofInt (i : Int) : Bignum :=
  { negative := i < 0, limbs := limbsOf i.natAbs }

/-- The normal form of a sign and limbs. -/
def normal (negative : Bool) (limbs : List UInt32) : Bignum :=
  { negative := negative && !(trim limbs).isEmpty, limbs := trim limbs }

def isZero (x : Bignum) : Bool := x.limbs.isEmpty

def neg (x : Bignum) : Bignum := normal (!x.negative) x.limbs

/-- Like signs add their magnitudes; unlike signs take the smaller magnitude
from the larger. -/
def add (x y : Bignum) : Bignum :=
  if x.negative = y.negative then
    normal x.negative (addLimbs x.limbs y.limbs 0)
  else if compareMagnitudes x.limbs y.limbs = .lt then
    normal y.negative (subLimbs y.limbs x.limbs false)
  else
    normal x.negative (subLimbs x.limbs y.limbs false)

def sub (x y : Bignum) : Bignum := x.add y.neg

def mul (x y : Bignum) : Bignum :=
  normal (x.negative != y.negative) (mulLimbs x.limbs y.limbs [])

/-- The order of the integers denoted. -/
def cmp (x y : Bignum) : Ordering :=
  match x.negative, y.negative with
  | false, true => .gt
  | true, false => .lt
  | false, false => compareMagnitudes x.limbs y.limbs
  | true, true => compareMagnitudes y.limbs x.limbs

-- ================================================================ ranges

/-- The number `2^127`. -/
def word128Bound : Nat := 170141183460469231731687303715884105728

/-- Limbs shifted into a word of 128 bits, the most significant first. -/
def wordOf : List UInt32 → BitVec 128
  | [] => 0
  | limb :: rest => wordOf rest <<< 32 ||| limb.toBitVec.setWidth 128

/-- The word as a signed one, if it is not too large. -/
def signed? (word : BitVec 128) : Option Int :=
  if word.toNat < word128Bound then some word.toNat else none

/-- The integer, if it fits a signed word of 128 bits. The least of them has no
positive counterpart. -/
def toWord128? (x : Bignum) : Option Int :=
  if 4 < x.limbs.length then none
  else
    let word := wordOf x.limbs
    if x.negative then
      if word = 1 <<< 127 then some (-(word128Bound : Int)) else (signed? word).map (- ·)
    else signed? word

end Bignum

end ObjectModel
