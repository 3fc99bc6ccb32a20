/-
Classes of characters, given by run lengths.

A class is a list of run lengths over the code points from zero upwards:
first the length of the run outside the class, then the length of the run
inside it, then outside again, and so on. Code points behind the last run
are outside. Membership walks the runs, so an ordinary letter is decided
after a handful of subtractions.
-/

namespace ObjectModel.Text

/-- A set of code points, as the lengths of its alternating runs. -/
structure CharClass where
  /-- Lengths of the runs outside, inside, outside, ... the class. -/
  runs : List Nat

namespace CharClass

/-- Whether `n` falls into a run inside the class, when the first of `runs`
is inside exactly if `inside` says so. -/
def covers : Bool → List Nat → Nat → Bool
  | _, [], _ => false
  | inside, run :: rest, n =>
    if n < run then inside else covers (!inside) rest (n - run)

/-- Membership of a character. -/
def contains (cls : CharClass) (c : Char) : Bool :=
  covers false cls.runs c.toNat

end CharClass

end ObjectModel.Text
