/-
Compositions of big integers.

What a program makes of words by negations, sums, differences and products is a
tree. It is evaluated twice, to a big integer and to an integer, and the one is
the normal form of the other (`Composition.evaluate_eq`), by induction on the
tree. Everything else is read off that: the order, equality and range of what
comes out, and that the words of no loop on the way overflow.
-/
import ObjectModel.Proofs.Bignum.Checked

namespace ObjectModel.Bignum

/-- The integer fits a signed word of 128 bits. -/
def FitsWord128 (z : Int) : Prop := -(word128Bound : Int) ≤ z ∧ z < word128Bound

instance (z : Int) : Decidable (FitsWord128 z) := inferInstanceAs (Decidable (_ ∧ _))

/-- Operations on big integers, with words at the leaves. -/
inductive Composition where
  | word (z : Int) (fits : FitsWord128 z)
  | neg (a : Composition)
  | add (a b : Composition)
  | sub (a b : Composition)
  | mul (a b : Composition)

namespace Composition

/-- The integer that is meant. -/
def denoted : Composition → Int
  | .word z _ => z
  | .neg a => -a.denoted
  | .add a b => a.denoted + b.denoted
  | .sub a b => a.denoted - b.denoted
  | .mul a b => a.denoted * b.denoted

/-- The big integer that comes out. -/
def evaluate : Composition → Bignum
  | .word z _ => ofInt z
  | .neg a => a.evaluate.neg
  | .add a b => a.evaluate.add b.evaluate
  | .sub a b => a.evaluate.sub b.evaluate
  | .mul a b => a.evaluate.mul b.evaluate

/-- The big integer that comes out if every word on the way is checked. -/
def evaluateChecked? : Composition → Option Bignum
  | .word z _ => some (ofInt z)
  | .neg a => do
    let x ← a.evaluateChecked?
    return x.neg
  | .add a b => do
    let x ← a.evaluateChecked?
    let y ← b.evaluateChecked?
    x.addChecked? y
  | .sub a b => do
    let x ← a.evaluateChecked?
    let y ← b.evaluateChecked?
    x.addChecked? y.neg
  | .mul a b => do
    let x ← a.evaluateChecked?
    let y ← b.evaluateChecked?
    x.mulChecked? y

/-- What comes out is the normal form of what is meant. -/
theorem evaluate_eq (a : Composition) : a.evaluate = ofInt a.denoted := by
  induction a with
  | word z fits => rfl
  | neg a ih =>
      unfold evaluate denoted
      rw [ih, neg_eq, toInt_ofInt]
  | add a b iha ihb =>
      unfold evaluate denoted
      rw [iha, ihb, add_eq (normal_ofInt _) (normal_ofInt _), toInt_ofInt, toInt_ofInt]
  | sub a b iha ihb =>
      unfold evaluate denoted
      rw [iha, ihb, sub_eq (normal_ofInt _), toInt_ofInt, toInt_ofInt]
  | mul a b iha ihb =>
      unfold evaluate denoted
      rw [iha, ihb, mul_eq, toInt_ofInt, toInt_ofInt]

theorem normal_evaluate (a : Composition) : a.evaluate.Normal := by
  rw [evaluate_eq]
  exact normal_ofInt _

theorem toInt_evaluate (a : Composition) : a.evaluate.toInt = a.denoted := by
  rw [evaluate_eq, toInt_ofInt]

/-- No check fails. -/
theorem evaluateChecked?_eq (a : Composition) : a.evaluateChecked? = some a.evaluate := by
  induction a with
  | word z fits => rfl
  | neg a ih =>
      unfold evaluateChecked? evaluate
      rw [ih]
      rfl
  | add a b iha ihb =>
      unfold evaluateChecked? evaluate
      rw [iha, ihb]
      exact addChecked?_eq a.normal_evaluate b.normal_evaluate
  | sub a b iha ihb =>
      unfold evaluateChecked? evaluate
      rw [iha, ihb]
      exact addChecked?_eq a.normal_evaluate (b.neg).normal_evaluate
  | mul a b iha ihb =>
      unfold evaluateChecked? evaluate
      rw [iha, ihb]
      exact mulChecked?_eq _ _

end Composition

/-- On two big integers the operations are those of the integers that they
denote. -/
structure Exact (x y : Bignum) : Prop where
  neg : x.neg.toInt = -x.toInt
  add : (x.add y).toInt = x.toInt + y.toInt
  sub : (x.sub y).toInt = x.toInt - y.toInt
  mul : (x.mul y).toInt = x.toInt * y.toInt
  order : x.cmp y = compare x.toInt y.toInt
  equality : x = y ↔ x.toInt = y.toInt
  word : ∀ z, x.toWord128? = some z ↔ z = x.toInt ∧ FitsWord128 z

/-- The operations on normal representations are exact. -/
theorem Normal.exact {x y : Bignum} (hx : x.Normal) (hy : y.Normal) : Exact x y where
  neg := by rw [neg_eq, toInt_ofInt]
  add := by rw [add_eq hx hy, toInt_ofInt]
  sub := by rw [sub_eq hx, toInt_ofInt]
  mul := by rw [mul_eq, toInt_ofInt]
  order := cmp_eq hx hy
  equality := by
    refine ⟨congrArg toInt, fun heq => ?_⟩
    rw [hx.eq_ofInt, hy.eq_ofInt, heq]
  word z := by
    rw [hx.toWord128?_eq, Option.ite_none_right_eq_some, Option.some_inj]
    constructor
    · rintro ⟨fits, rfl⟩
      exact ⟨rfl, fits⟩
    · rintro ⟨rfl, fits⟩
      exact ⟨fits, rfl⟩

/-- Whatever big integers come out of words by negations, sums, differences and
products: they are in normal form and denote the integers that are meant, no
word overflows and no carry or borrow is lost on the way, and the operations on
them, their order, equality and range are those of the integers. -/
theorem composition_exact (a b : Composition) :
    a.evaluate.Normal ∧ a.evaluate.toInt = a.denoted
      ∧ a.evaluateChecked? = some a.evaluate ∧ Exact a.evaluate b.evaluate :=
  ⟨a.normal_evaluate, a.toInt_evaluate, a.evaluateChecked?_eq,
    a.normal_evaluate.exact b.normal_evaluate⟩

end ObjectModel.Bignum
