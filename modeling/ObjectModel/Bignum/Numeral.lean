/-
Decimal numerals of integers.

The text of a big integer comes from dividing its limbs by `10^9` until
nothing is left: each remainder is nine digits of the text. Reading goes the
other way, digit by digit.
-/
import ObjectModel.Bignum.Basic
import ObjectModel.Double.Basic

namespace ObjectModel.Bignum

/-- The base of the digits groups. -/
def chunk : UInt64 := 1000000000

/-- Limbs divided by the chunk, and the remainder. -/
def divChunk : List UInt32 → List UInt32 × UInt64
  | [] => ([], 0)
  | limb :: rest =>
    let (quotient, remainder) := divChunk rest
    let current := (remainder <<< 32) ||| limb.toUInt64
    ((current / chunk).toUInt32 :: quotient, current % chunk)

/-- The groups of nine digits, the least significant first, at most `fuel`
of them. -/
def chunks : Nat → List UInt32 → List UInt64
  | 0, _ => []
  | fuel + 1, limbs =>
    if limbs.all (· == 0) then []
    else
      let (quotient, remainder) := divChunk limbs
      remainder :: chunks fuel quotient

/-- Nine digits, with zeros in front. -/
def nineDigits (n : UInt64) : List Char :=
  let digits := Nat.toDigits 10 n.toNat
  List.replicate (9 - digits.length) '0' ++ digits

/-- Digit groups as digits; the first group has no zeros in front. -/
def joinChunks : List UInt64 → List Char
  | [] => []
  | first :: rest => Nat.toDigits 10 first.toNat ++ rest.flatMap nineDigits

/-- The decimal numeral. A limb is less than two groups, so twice as many
groups as limbs are enough. -/
def numeral (x : Bignum) : List Char :=
  if x.limbs.isEmpty then ['0']
  else
    (if x.negative then ['-'] else []) ++
      joinChunks (chunks (2 * x.limbs.length) x.limbs).reverse

def toText (x : Bignum) : String := String.ofList x.numeral

/-- The value of decimal digits, if there is at least one and nothing else. -/
def readDigits? : List Char → Option Nat
  | [] => none
  | digits =>
    digits.foldlM (fun n c =>
      if '0' ≤ c ∧ c ≤ '9' then some (10 * n + (c.toNat - '0'.toNat)) else none) 0

/-- The integer that a decimal numeral denotes. -/
def readNumeral? : List Char → Option Int
  | '-' :: digits => (readDigits? digits).map fun n => -(n : Int)
  | digits => (readDigits? digits).map fun n => (n : Int)

/-- The double that Horner's rule in base `2^32` ends at, each step rounded. -/
def toDouble (x : Bignum) : Double :=
  let base := Double.ofInt 4294967296
  let m := x.limbs.foldr
    (fun limb acc => (acc.mul base).add (Double.ofInt limb.toNat)) Double.zero
  if x.negative then m.neg else m

end ObjectModel.Bignum
