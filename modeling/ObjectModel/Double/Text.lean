/-
How numbers are written.

Two forms share the shortest digits. The form for people writes integers in
full with one zero behind the point and never uses an exponent. The form for
diagnosis writes numbers from `10^16` on and below `10^-4` with an exponent.
-/
import ObjectModel.Double.Shortest

namespace ObjectModel.Double

/-- Digits around a point; integers get `places` zeros behind one. -/
def Decimal.positional (d : Decimal) (places : Nat) : List Char :=
  match d.point with
  | .ofNat n =>
    let whole := d.digits.take n ++ List.replicate (n - d.digits.length) '0'
    let fraction := d.digits.drop n
    let fraction := fraction ++ List.replicate (places - fraction.length) '0'
    (if whole.isEmpty then ['0'] else whole) ++
      (if fraction.isEmpty then [] else '.' :: fraction)
  | .negSucc n => ['0', '.'] ++ List.replicate (n + 1) '0' ++ d.digits

/-- One digit before the point and a power of ten. -/
def Decimal.scientific (d : Decimal) : List Char :=
  match d.digits with
  | [] => ['0', 'e', '0']
  | first :: rest =>
    first :: (if rest.isEmpty then [] else '.' :: rest) ++
      'e' :: (toString (d.point - 1)).toList

/-- A minus sign for numbers whose sign bit is set. -/
def sign (x : Double) : List Char :=
  if x.negative then ['-'] else []

/-- The magnitude of an integral number. -/
def wholePart (x : Double) : Nat :=
  match x.exponent with
  | .ofNat e => x.mantissa <<< e
  | .negSucc e => x.mantissa >>> (e + 1)

/-- The form for people. -/
def inspect (x : Double) : String :=
  if x.isNaN then "NaN"
  else if x.isInfinite then (if x.negative then "-Infinity" else "Infinity")
  else if x.isIntegral then
    String.ofList (x.sign ++ Nat.toDigits 10 x.wholePart ++ ['.', '0'])
  else String.ofList (x.sign ++ x.shortest.positional 0)

/-- The form for diagnosis. -/
def diagnostic (x : Double) : String :=
  if x.isNaN then "NaN"
  else if x.isInfinite then (if x.negative then "-inf" else "inf")
  else if x.isZero then String.ofList (x.sign ++ ['0', '.', '0'])
  else
    let d := x.shortest
    String.ofList (x.sign ++
      if -3 ≤ d.point && d.point ≤ 16 then d.positional 1 else d.scientific)

/-- Value of a hexadecimal digit in either case. -/
def hexDigit? (c : Char) : Option Nat :=
  if '0' ≤ c ∧ c ≤ '9' then some (c.toNat - '0'.toNat)
  else if 'a' ≤ c ∧ c ≤ 'f' then some (c.toNat - 'a'.toNat + 10)
  else if 'A' ≤ c ∧ c ≤ 'F' then some (c.toNat - 'A'.toNat + 10)
  else none

/-- Reads sixteen hexadecimal digits, or `nan`. -/
def ofHex? (text : String) : Option Double :=
  if text = "nan" then some nan
  else if text.length = 16 then
    (text.toList.foldlM (fun n c => (hexDigit? c).map (16 * n + ·)) 0).map
      fun n => ⟨n.toUInt64⟩
  else none

/-- Sixteen hexadecimal digits, or `nan` for every NaN. -/
def toHex (x : Double) : String :=
  if x.isNaN then "nan"
  else
    let digits := Nat.toDigits 16 x.bits.toNat
    String.ofList (List.replicate (16 - digits.length) '0' ++ digits)

end ObjectModel.Double
