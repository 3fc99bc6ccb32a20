/-
The fewest decimal digits that read back.

Every finite positive double owns the interval of reals that round to it:
half a step up, half a step down (a quarter where the step below is shorter),
with its ends exactly if its mantissa is even. For one digit, two digits, and
so on, the two neighbours of the number on that decimal grid are tried, and
the first grid with a neighbour in the interval gives the digits. Of two
neighbours in the interval the nearer one is taken, the upper one on a tie.

Everything is exact arithmetic on natural numbers.
-/
import ObjectModel.Double.Basic

namespace ObjectModel.Double

/-- A positive decimal `0.d₁d₂… · 10^point`. -/
structure Decimal where
  digits : List Char
  point : Int
deriving DecidableEq

/-- A positive number with the interval that rounds to it, all over one
denominator. -/
structure Rounding where
  low : Nat
  value : Nat
  high : Nat
  denominator : Nat
  /-- Whether the ends belong to the interval. -/
  closed : Bool

/-- The interval of a finite positive double. -/
def rounding (x : Double) : Rounding :=
  let m := 4 * x.mantissa
  let below := if x.mantissa = 0x10000000000000 then 1 else 2
  let closed := x.mantissa % 2 == 0
  match x.exponent - 2 with
  | .ofNat e => ⟨(m - below) <<< e, m <<< e, (m + 2) <<< e, 1, closed⟩
  | .negSucc e => ⟨m - below, m, m + 2, 1 <<< (e + 1), closed⟩

/-- The least `j` from `start` on with `denominator ≤ value · 10^j`, looked
for among the next `fuel` numbers. -/
def leadingZeros (value denominator : Nat) : Nat → Nat → Nat
  | 0, start => start
  | fuel + 1, start =>
    if denominator ≤ value * Nat.pow 10 start then start
    else leadingZeros value denominator fuel (start + 1)

/-- The `k` with `10^(k-1) ≤ value / denominator < 10^k`. -/
def decade (value denominator : Nat) : Int :=
  if denominator ≤ value then (Nat.toDigits 10 (value / denominator)).length
  else 1 - (leadingZeros value denominator 400 1 : Nat)

/-- The interval and the number, counted in units of `10^k`. -/
def Rounding.inUnits (r : Rounding) (k : Int) : Rounding :=
  match k with
  | .ofNat n => { r with denominator := r.denominator * Nat.pow 10 n }
  | .negSucc n =>
    { r with
      low := r.low * Nat.pow 10 (n + 1), value := r.value * Nat.pow 10 (n + 1),
      high := r.high * Nat.pow 10 (n + 1) }

/-- Whether the integer `c` lies in the interval. -/
def Rounding.admits (r : Rounding) (c : Nat) : Bool :=
  let p := c * r.denominator
  if r.closed then r.low ≤ p && p ≤ r.high else r.low < p && p < r.high

/-- The neighbour of the number among the integers that the interval
admits, the nearer of two. -/
def Rounding.neighbour? (r : Rounding) : Option Nat :=
  let down := r.value / r.denominator
  let rest := r.value % r.denominator
  match r.admits down, r.admits (down + 1) with
  | true, true => some (if r.denominator ≤ 2 * rest then down + 1 else down)
  | true, false => some down
  | false, true => some (down + 1)
  | false, false => none

/-- A positive integer count of `10^k` as a decimal without zeros at the
end. -/
def Decimal.ofUnits (count : Nat) (k : Int) : Decimal :=
  let digits := Nat.toDigits 10 count
  { digits := (digits.reverse.dropWhile (· == '0')).reverse
    point := digits.length + k }

/-- The first grid that hits, from `n` digits on. -/
def shortestFrom (r : Rounding) (decade : Int) : Nat → Nat → Decimal
  | 0, n => Decimal.ofUnits ((r.inUnits (decade - n)).value / r.denominator) (decade - n)
  | fuel + 1, n =>
    match (r.inUnits (decade - n)).neighbour? with
    | some count => Decimal.ofUnits count (decade - n)
    | none => shortestFrom r decade fuel (n + 1)

/-- The shortest decimal that reads back as the finite positive `x`. -/
def shortest (x : Double) : Decimal :=
  let r := x.rounding
  shortestFrom r (decade r.value r.denominator) 17 1

end ObjectModel.Double
