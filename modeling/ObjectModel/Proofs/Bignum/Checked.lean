/-
Limbs in checked words.

The loops over limbs again, in words that do not wrap: where a sum or a product
is too large for its word, where a carry does not fit a limb, where a borrow, a
digit of the window or a limb of the smaller number would be left behind, a
checked loop ends without a result. None of this happens. A checked loop ends
with the limbs of the plain one, for limbs of any length; a difference asks that
the first number is not the smaller one, which sums of unlike signs see to
(`addChecked?_eq`).
-/
import ObjectModel.Proofs.Bignum.Integer

namespace ObjectModel.Bignum

-- ============================================================= checked words

/-- The sum, if a word holds it. -/
def sum? (x y : UInt64) : Option UInt64 :=
  if x.toNat + y.toNat < 18446744073709551616 then some (x + y) else none

/-- The product, if a word holds it. -/
def product? (x y : UInt64) : Option UInt64 :=
  if x.toNat * y.toNat < 18446744073709551616 then some (x * y) else none

/-- The word as a limb, if it fits one. -/
def limb? (x : UInt64) : Option UInt32 :=
  if x.toNat < 4294967296 then some x.toUInt32 else none

-- ============================================================= checked loops

/-- A carry walking into limbs. -/
def addCarryChecked? : List UInt32 → UInt64 → Option (List UInt32)
  | [], carry => if carry = 0 then some [] else (limb? carry).map ([·])
  | a :: as, carry => do
    let sum ← sum? a.toUInt64 carry
    let rest ← addCarryChecked? as (sum >>> 32)
    return sum.toUInt32 :: rest

/-- The sum of two magnitudes and a carry. -/
def addLimbsChecked? : List UInt32 → List UInt32 → UInt64 → Option (List UInt32)
  | [], bs, carry => addCarryChecked? bs carry
  | as, [], carry => addCarryChecked? as carry
  | a :: as, b :: bs, carry => do
    let limbs ← sum? a.toUInt64 b.toUInt64
    let sum ← sum? limbs carry
    let rest ← addLimbsChecked? as bs (sum >>> 32)
    return sum.toUInt32 :: rest

/-- The difference of two magnitudes, less a borrow. A limb that borrows twice
would pass on one borrow only. -/
def subLimbsChecked? : List UInt32 → List UInt32 → Bool → Option (List UInt32)
  | [], bs, borrow => if magnitude bs = 0 ∧ borrow = false then some [] else none
  | a :: as, bs, borrow =>
    let b := bs.headD 0
    let lent : UInt32 := if borrow then 1 else 0
    let part := a - b
    if a < b ∧ part < lent then none
    else do
      let rest ← subLimbsChecked? as bs.tail (a < b || part < lent)
      return (part - lent) :: rest

/-- One limb times a magnitude, plus the digits of `window`, plus a carry. -/
def mulRowChecked? (a : UInt32) : List UInt32 → List UInt32 → UInt64 → Option (List UInt32)
  | [], window, carry => if window = [] then (limb? carry).map ([·]) else none
  | b :: bs, window, carry => do
    let product ← product? a.toUInt64 b.toUInt64
    let held ← sum? (window.headD 0).toUInt64 product
    let acc ← sum? held carry
    let rest ← mulRowChecked? a bs window.tail (acc >>> 32)
    return acc.toUInt32 :: rest

/-- The product of two magnitudes, row by row. -/
def mulLimbsChecked? : List UInt32 → List UInt32 → List UInt32 → Option (List UInt32)
  | [], _, window => some window
  | a :: as, bs, window => do
    let row ← mulRowChecked? a bs window 0
    let rest ← mulLimbsChecked? as bs row.tail
    return row.headD 0 :: rest

variable {x y : Bignum}

/-- The sum, as `add` has it, in checked words. -/
def addChecked? (x y : Bignum) : Option Bignum :=
  if x.negative = y.negative then
    (addLimbsChecked? x.limbs y.limbs 0).map (normal x.negative)
  else if compareMagnitudes x.limbs y.limbs = .lt then
    (subLimbsChecked? y.limbs x.limbs false).map (normal y.negative)
  else
    (subLimbsChecked? x.limbs y.limbs false).map (normal x.negative)

/-- The product, as `mul` has it, in checked words. -/
def mulChecked? (x y : Bignum) : Option Bignum :=
  (mulLimbsChecked? x.limbs y.limbs []).map (normal (x.negative != y.negative))

-- ================================================================== one word

/-- A sum that a word holds. -/
theorem sum?_eq {x y : UInt64} (h : x.toNat + y.toNat < 18446744073709551616) :
    sum? x y = some (x + y) := if_pos h

/-- A carry that a limb holds. -/
theorem limb?_eq {x : UInt64} (h : x.toNat < 4294967296) : limb? x = some x.toUInt32 := if_pos h

/-- Two limbs, and with them a carry, are summed in a word. -/
theorem sum?_limbs (a b : UInt32) {carry : UInt64} (h : carry.toNat < 4294967296) :
    sum? a.toUInt64 b.toUInt64 = some (a.toUInt64 + b.toUInt64)
      ∧ sum? (a.toUInt64 + b.toUInt64) carry = some (a.toUInt64 + b.toUInt64 + carry) := by
  have ha : a.toNat < 4294967296 := a.toNat_lt
  have hb : b.toNat < 4294967296 := b.toNat_lt
  have hzero : (0 : UInt64).toNat < 4294967296 := by decide
  have hlimbs : (a.toUInt64 + b.toUInt64).toNat = a.toNat + b.toNat := by
    simpa using toNat_sum (a := a) (b := b) hzero
  refine ⟨sum?_eq ?_, sum?_eq ?_⟩
  · rw [UInt32.toNat_toUInt64, UInt32.toNat_toUInt64]
    omega
  · rw [hlimbs]
    omega

/-- A product of limbs, then the limb and the carry that are added to it, are
held in a word: at the very most it is `2^64 - 1`. -/
theorem product?_limbs (a b digit : UInt32) {carry : UInt64} (h : carry.toNat < 4294967296) :
    product? a.toUInt64 b.toUInt64 = some (a.toUInt64 * b.toUInt64)
      ∧ sum? digit.toUInt64 (a.toUInt64 * b.toUInt64)
          = some (digit.toUInt64 + a.toUInt64 * b.toUInt64)
      ∧ sum? (digit.toUInt64 + a.toUInt64 * b.toUInt64) carry
          = some (digit.toUInt64 + a.toUInt64 * b.toUInt64 + carry) := by
  have ha : a.toNat ≤ 4294967295 := Nat.le_of_lt_succ a.toNat_lt
  have hb : b.toNat ≤ 4294967295 := Nat.le_of_lt_succ b.toNat_lt
  have hdigit : digit.toNat < 4294967296 := digit.toNat_lt
  have hbound : a.toNat * b.toNat ≤ 4294967295 * 4294967295 := Nat.mul_le_mul ha hb
  have hzero : (0 : UInt64).toNat < 4294967296 := by decide
  have hproduct : (a.toUInt64 * b.toUInt64).toNat = a.toNat * b.toNat := by
    simpa using toNat_product a b 0 hzero
  have hheld : (digit.toUInt64 + a.toUInt64 * b.toUInt64).toNat
      = digit.toNat + a.toNat * b.toNat := by
    simpa using toNat_product a b digit hzero
  refine ⟨if_pos ?_, sum?_eq ?_, sum?_eq ?_⟩
  · rw [UInt32.toNat_toUInt64, UInt32.toNat_toUInt64]
    omega
  · rw [hproduct, UInt32.toNat_toUInt64]
    omega
  · rw [hheld]
    omega

/-- A limb that borrows once to reach the other limb has one left to lend. -/
theorem borrows_once (a b lent : UInt32) (h : lent.toNat ≤ 1) : ¬ (a < b ∧ a - b < lent) := by
  rintro ⟨hless, hunder⟩
  have ha : a.toNat < 4294967296 := a.toNat_lt
  have hb : b.toNat < 4294967296 := b.toNat_lt
  have hpart : (a - b).toNat = (4294967296 - b.toNat + a.toNat) % 4294967296 :=
    UInt32.toNat_sub a b
  rw [UInt32.lt_iff_toNat_lt] at hless hunder
  omega

-- ================================================================== all words

theorem addCarryChecked?_eq : ∀ (as : List UInt32) (carry : UInt64),
    carry.toNat < 4294967296 → addCarryChecked? as carry = some (addCarry as carry) := by
  intro as
  induction as with
  | nil =>
      intro carry h
      unfold addCarryChecked? addCarry
      rw [limb?_eq h]
      split
      · rfl
      · rfl
  | cons a as ih =>
      intro carry h
      have hsum := (sum?_limbs a 0 h).2
      rw [show (0 : UInt32).toUInt64 = 0 from rfl, UInt64.add_zero] at hsum
      unfold addCarryChecked? addCarry
      rw [hsum]
      dsimp only [bind, Option.bind]
      rw [ih _ (high_lt _)]
      rfl

/-- No word of a sum overflows, and no carry is lost. -/
theorem addLimbsChecked?_eq : ∀ (as bs : List UInt32) (carry : UInt64),
    carry.toNat < 4294967296 → addLimbsChecked? as bs carry = some (addLimbs as bs carry) := by
  intro as
  induction as with
  | nil =>
      intro bs carry h
      unfold addLimbsChecked? addLimbs
      exact addCarryChecked?_eq bs carry h
  | cons a as ih =>
      intro bs carry h
      cases bs with
      | nil =>
          unfold addLimbsChecked? addLimbs
          exact addCarryChecked?_eq _ carry h
      | cons b bs =>
          obtain ⟨hlimbs, hsum⟩ := sum?_limbs a b h
          unfold addLimbsChecked? addLimbs
          rw [hlimbs]
          dsimp only [bind, Option.bind]
          rw [hsum]
          dsimp only
          rw [ih bs _ (high_lt _)]
          rfl

/-- No limb of a difference borrows twice, and no borrow is left over, if the
first number is not the smaller one. -/
theorem subLimbsChecked?_eq : ∀ (as bs : List UInt32) (borrow : Bool),
    magnitude bs + borrow.toNat ≤ magnitude as →
      subLimbsChecked? as bs borrow = some (subLimbs as bs borrow) := by
  intro as
  induction as with
  | nil =>
      intro bs borrow h
      rw [magnitude, Nat.le_zero, Nat.add_eq_zero_iff, Bool.toNat_eq_zero] at h
      unfold subLimbsChecked? subLimbs
      exact if_pos h
  | cons a as ih =>
      intro bs borrow h
      have hlent : (if borrow then 1 else 0 : UInt32).toNat = borrow.toNat := by
        cases borrow
        · rfl
        · rfl
      have hone : (if borrow then 1 else 0 : UInt32).toNat ≤ 1 := by
        rw [hlent]
        exact Bool.toNat_le borrow
      have hdifference := toNat_difference a (bs.headD 0) (if borrow then 1 else 0) hone
      have hlimb := (a - bs.headD 0 - if borrow then 1 else 0).toNat_lt
      have hbs := magnitude_headD_tail bs
      unfold subLimbsChecked? subLimbs
      dsimp only
      rw [if_neg (borrows_once _ _ _ hone), ih]
      · rfl
      · rw [hlent] at hdifference
        rw [magnitude] at h
        omega

/-- No word of a row overflows, and no digit of the window is left behind. -/
theorem mulRowChecked?_eq (a : UInt32) : ∀ (bs window : List UInt32) (carry : UInt64),
    window.length ≤ bs.length → carry.toNat < 4294967296 →
      mulRowChecked? a bs window carry = some (mulRow a bs window carry) := by
  intro bs
  induction bs with
  | nil =>
      intro window carry hlength h
      obtain rfl := List.length_eq_zero_iff.mp (Nat.le_zero.mp hlength)
      unfold mulRowChecked? mulRow
      rw [if_pos rfl, limb?_eq h]
      rfl
  | cons b bs ih =>
      intro window carry hlength h
      obtain ⟨hproduct, hheld, hacc⟩ := product?_limbs a b (window.headD 0) h
      have htail : window.tail.length ≤ bs.length := by
        rw [List.length_tail]
        exact Nat.sub_le_of_le_add hlength
      unfold mulRowChecked? mulRow
      rw [hproduct]
      dsimp only [bind, Option.bind]
      rw [hheld]
      dsimp only
      rw [hacc]
      dsimp only
      rw [ih _ _ htail (high_lt _)]
      rfl

/-- No word of a product overflows. -/
theorem mulLimbsChecked?_eq : ∀ (as bs window : List UInt32), window.length ≤ bs.length →
    mulLimbsChecked? as bs window = some (mulLimbs as bs window) := by
  intro as
  induction as with
  | nil => intro bs window _; rfl
  | cons a as ih =>
      intro bs window hlength
      have hlengthRow := length_mulRow a bs window 0
      unfold mulLimbsChecked? mulLimbs
      rw [mulRowChecked?_eq a bs window 0 hlength (by decide)]
      cases hcase : mulRow a bs window 0 with
      | nil =>
          rw [hcase] at hlengthRow
          cases hlengthRow
      | cons digit rest =>
          rw [hcase, List.length_cons] at hlengthRow
          have hrest : rest.length ≤ bs.length := Nat.le_of_eq (Nat.succ.inj hlengthRow)
          dsimp only [bind, Option.bind, List.tail_cons, List.headD_cons]
          rw [ih bs rest hrest]
          rfl

-- ================================================================== integers

/-- The magnitude that is taken away is never the larger one. -/
theorem addChecked?_eq (hx : x.Normal) (hy : y.Normal) : x.addChecked? y = some (x.add y) := by
  have horder := compareMagnitudes_eq hx.trimmed hy.trimmed
  unfold addChecked? add
  split
  · rw [addLimbsChecked?_eq _ _ _ (by decide)]
    rfl
  · split
    · next hlt =>
      rw [horder, Nat.compare_eq_lt] at hlt
      have hle : magnitude x.limbs + false.toNat ≤ magnitude y.limbs := Nat.le_of_lt hlt
      rw [subLimbsChecked?_eq _ _ _ hle]
      rfl
    · next hge =>
      rw [horder, Nat.compare_eq_lt] at hge
      have hle : magnitude y.limbs + false.toNat ≤ magnitude x.limbs := Nat.le_of_not_lt hge
      rw [subLimbsChecked?_eq _ _ _ hle]
      rfl

theorem mulChecked?_eq (x y : Bignum) : x.mulChecked? y = some (x.mul y) := by
  unfold mulChecked? mul
  rw [mulLimbsChecked?_eq _ _ _ (Nat.zero_le _)]
  rfl

end ObjectModel.Bignum
