/-
Limbs compute on the numbers that they denote.

Each loop over limbs passes something on to the next limb: a carry, a borrow,
the digits that later rows add to. One lemma per loop says what the limbs that
come out denote together with what is passed on, for any limbs that go in. The
words of one step are looked at once, in the first section: split into its two
halves, a word of 64 bits is the digit that stays and the carry that goes on,
and no step overflows it.
-/
import ObjectModel.Bignum.Basic
import Mathlib.Tactic.Ring

namespace ObjectModel.Bignum

-- ================================================================= one word

/-- A word is its low half, and its high half times the base. -/
theorem low_add_high (w : UInt64) :
    w.toUInt32.toNat + 4294967296 * (w >>> 32).toNat = w.toNat := by
  have hlow : w.toUInt32.toNat = w.toNat % 4294967296 := UInt64.toNat_toUInt32 w
  have hhigh : (w >>> 32).toNat = w.toNat / 4294967296 := by
    rw [UInt64.toNat_shiftRight]
    exact Nat.shiftRight_eq_div_pow _ _
  rw [hlow, hhigh]
  exact Nat.mod_add_div _ _

/-- The high half of a word is a limb. -/
theorem high_lt (w : UInt64) : (w >>> 32).toNat < 4294967296 := by
  have hword := low_add_high w
  have hlt : w.toNat < 18446744073709551616 := w.toNat_lt
  omega

/-- Two limbs and a carry do not overflow a word. -/
theorem toNat_sum {a b : UInt32} {carry : UInt64} (h : carry.toNat < 4294967296) :
    (a.toUInt64 + b.toUInt64 + carry).toNat = a.toNat + b.toNat + carry.toNat := by
  have ha : a.toNat < 4294967296 := a.toNat_lt
  have hb : b.toNat < 4294967296 := b.toNat_lt
  rw [UInt64.toNat_add, UInt64.toNat_add, UInt32.toNat_toUInt64, UInt32.toNat_toUInt64]
  omega

/-- A product of limbs, with a limb and a carry added, does not overflow a
word. -/
theorem toNat_product (a b digit : UInt32) {carry : UInt64} (h : carry.toNat < 4294967296) :
    (digit.toUInt64 + a.toUInt64 * b.toUInt64 + carry).toNat
      = digit.toNat + a.toNat * b.toNat + carry.toNat := by
  have ha : a.toNat ≤ 4294967295 := Nat.le_of_lt_succ a.toNat_lt
  have hb : b.toNat ≤ 4294967295 := Nat.le_of_lt_succ b.toNat_lt
  have hdigit : digit.toNat < 4294967296 := digit.toNat_lt
  have hproduct : a.toNat * b.toNat ≤ 4294967295 * 4294967295 := Nat.mul_le_mul ha hb
  rw [UInt64.toNat_add, UInt64.toNat_add, UInt64.toNat_mul, UInt32.toNat_toUInt64,
    UInt32.toNat_toUInt64, UInt32.toNat_toUInt64]
  omega

/-- A limb less a limb and a borrow, with the borrow that goes on. -/
theorem toNat_difference (a b lent : UInt32) (h : lent.toNat ≤ 1) :
    (a - b - lent).toNat + b.toNat + lent.toNat
      = a.toNat + 4294967296 * (decide (a < b) || decide (a - b < lent)).toNat := by
  have ha : a.toNat < 4294967296 := a.toNat_lt
  have hb : b.toNat < 4294967296 := b.toNat_lt
  have hpart : (a - b).toNat = (4294967296 - b.toNat + a.toNat) % 4294967296 :=
    UInt32.toNat_sub a b
  have hrest : (a - b - lent).toNat = (4294967296 - lent.toNat + (a - b).toNat) % 4294967296 :=
    UInt32.toNat_sub (a - b) lent
  rw [hrest]
  by_cases hless : a < b
  · rw [UInt32.lt_iff_toNat_lt] at hless
    by_cases hunder : a - b < lent
    · rw [UInt32.lt_iff_toNat_lt] at hunder
      omega
    · rw [decide_eq_true (UInt32.lt_iff_toNat_lt.mpr hless), Bool.true_or]
      rw [UInt32.lt_iff_toNat_lt] at hunder
      simp only [Bool.toNat_true]
      omega
  · rw [decide_eq_false hless, Bool.false_or]
    rw [UInt32.lt_iff_toNat_lt] at hless
    by_cases hunder : a - b < lent
    · rw [decide_eq_true hunder]
      rw [UInt32.lt_iff_toNat_lt] at hunder
      simp only [Bool.toNat_true]
      omega
    · rw [decide_eq_false hunder]
      rw [UInt32.lt_iff_toNat_lt] at hunder
      simp only [Bool.toNat_false]
      omega

-- ==================================================================== sums

theorem magnitude_addCarry : ∀ (as : List UInt32) (carry : UInt64), carry.toNat < 4294967296 →
    magnitude (addCarry as carry) = magnitude as + carry.toNat := by
  intro as
  induction as with
  | nil =>
      intro carry h
      unfold addCarry
      split
      · next hzero =>
        subst hzero
        rfl
      · have hlow : carry.toUInt32.toNat = carry.toNat % 4294967296 := UInt64.toNat_toUInt32 carry
        simp only [magnitude]
        omega
  | cons a as ih =>
      intro carry h
      have hsum : (a.toUInt64 + carry).toNat = a.toNat + carry.toNat := by
        simpa using toNat_sum (a := a) (b := 0) h
      have hsplit := low_add_high (a.toUInt64 + carry)
      unfold addCarry
      simp only [magnitude]
      rw [ih _ (high_lt _)]
      omega

theorem magnitude_addLimbs : ∀ (as bs : List UInt32) (carry : UInt64),
    carry.toNat < 4294967296 →
      magnitude (addLimbs as bs carry) = magnitude as + magnitude bs + carry.toNat := by
  intro as
  induction as with
  | nil =>
      intro bs carry h
      unfold addLimbs
      rw [magnitude_addCarry bs carry h]
      simp only [magnitude]
      omega
  | cons a as ih =>
      intro bs carry h
      cases bs with
      | nil =>
          unfold addLimbs
          rw [magnitude_addCarry _ carry h]
          simp only [magnitude]
          omega
      | cons b bs =>
          have hsum := toNat_sum (a := a) (b := b) h
          have hsplit := low_add_high (a.toUInt64 + b.toUInt64 + carry)
          unfold addLimbs
          simp only [magnitude]
          rw [ih bs _ (high_lt _)]
          omega

-- ============================================================== differences

/-- The number that a list of limbs denotes, by its first limb. -/
theorem magnitude_headD_tail (bs : List UInt32) :
    magnitude bs = (bs.headD 0).toNat + 4294967296 * magnitude bs.tail := by
  cases bs with
  | nil => rfl
  | cons b bs => rfl

/-- No borrow is left over if the first number is not the smaller one. -/
theorem magnitude_subLimbs : ∀ (as bs : List UInt32) (borrow : Bool),
    magnitude bs + borrow.toNat ≤ magnitude as →
      magnitude (subLimbs as bs borrow) + magnitude bs + borrow.toNat = magnitude as := by
  intro as
  induction as with
  | nil =>
      intro bs borrow h
      unfold subLimbs
      simp only [magnitude] at h ⊢
      omega
  | cons a as ih =>
      intro bs borrow h
      have hlent : (if borrow then 1 else 0 : UInt32).toNat = borrow.toNat := by
        cases borrow
        · rfl
        · rfl
      have hone : borrow.toNat ≤ 1 := Bool.toNat_le borrow
      have hdifference := toNat_difference a (bs.headD 0) (if borrow then 1 else 0)
        (by rw [hlent]; exact hone)
      rw [hlent] at hdifference
      have hlimb := (a - bs.headD 0 - if borrow then 1 else 0).toNat_lt
      have hbs := magnitude_headD_tail bs
      have hih := ih bs.tail
        (decide (a < bs.headD 0) || decide (a - bs.headD 0 < if borrow then 1 else 0))
      unfold subLimbs
      simp only [magnitude] at h ⊢
      omega

-- ================================================================= products

/-- A row of a product adds a limb times a magnitude to the digits of the
window, which is no longer than the magnitude. -/
theorem magnitude_mulRow (a : UInt32) : ∀ (bs window : List UInt32) (carry : UInt64),
    window.length ≤ bs.length → carry.toNat < 4294967296 →
      magnitude (mulRow a bs window carry)
        = magnitude window + a.toNat * magnitude bs + carry.toNat := by
  intro bs
  induction bs with
  | nil =>
      intro window carry hlength h
      obtain rfl := List.length_eq_zero_iff.mp (Nat.le_zero.mp hlength)
      have hlow : carry.toUInt32.toNat = carry.toNat % 4294967296 := UInt64.toNat_toUInt32 carry
      unfold mulRow
      simp only [magnitude]
      omega
  | cons b bs ih =>
      intro window carry hlength h
      have hproduct := toNat_product a b (window.headD 0) h
      have hsplit := low_add_high ((window.headD 0).toUInt64 + a.toUInt64 * b.toUInt64 + carry)
      have hwindow := magnitude_headD_tail window
      have hdistrib : a.toNat * (b.toNat + 4294967296 * magnitude bs)
          = a.toNat * b.toNat + 4294967296 * (a.toNat * magnitude bs) := by ring
      unfold mulRow
      simp only [magnitude]
      rw [ih _ _ (by rw [List.length_tail]; exact Nat.sub_le_of_le_add hlength) (high_lt _),
        hdistrib]
      omega

/-- A row is one limb longer than the magnitude. -/
theorem length_mulRow (a : UInt32) : ∀ (bs window : List UInt32) (carry : UInt64),
    (mulRow a bs window carry).length = bs.length + 1 := by
  intro bs
  induction bs with
  | nil => intro window carry; rfl
  | cons b bs ih =>
      intro window carry
      unfold mulRow
      rw [List.length_cons, ih]
      rfl

/-- A product adds to the digits of the window. Each row hands its digits but
the lowest on to the next one. -/
theorem magnitude_mulLimbs : ∀ (as bs window : List UInt32), window.length ≤ bs.length →
    magnitude (mulLimbs as bs window) = magnitude window + magnitude as * magnitude bs := by
  intro as
  induction as with
  | nil =>
      intro bs window _
      unfold mulLimbs
      simp only [magnitude]
      omega
  | cons a as ih =>
      intro bs window hlength
      have hrow := magnitude_mulRow a bs window 0 hlength (by decide)
      have hlengthRow := length_mulRow a bs window 0
      unfold mulLimbs
      cases hcase : mulRow a bs window 0 with
      | nil =>
          rw [hcase] at hlengthRow
          cases hlengthRow
      | cons digit rest =>
          rw [hcase] at hrow hlengthRow
          have hrest : rest.length ≤ bs.length := by
            rw [List.length_cons] at hlengthRow
            omega
          have hdistrib : (a.toNat + 4294967296 * magnitude as) * magnitude bs
              = a.toNat * magnitude bs + 4294967296 * (magnitude as * magnitude bs) := by ring
          simp only [magnitude] at hrow ⊢
          rw [ih bs rest hrest, hdistrib]
          have hzero : (0 : UInt64).toNat = 0 := rfl
          omega

-- ================================================================== canonical

theorem limbsOf_zero : limbsOf 0 = [] := by
  unfold limbsOf
  rfl

/-- The limbs of a number are its last digit and the limbs of the rest. -/
theorem limbsOf_cons {limb : UInt32} {n : Nat} (h : limb.toNat + 4294967296 * n ≠ 0) :
    limbsOf (limb.toNat + 4294967296 * n) = limb :: limbsOf n := by
  have hlimb : limb.toNat < 4294967296 := limb.toNat_lt
  have hdigit : (limb.toNat + 4294967296 * n).toUInt32 = limb := by
    rw [← UInt32.toNat_inj]
    have hmod : (limb.toNat + 4294967296 * n).toUInt32.toNat
        = (limb.toNat + 4294967296 * n) % 4294967296 := UInt32.toNat_ofNat'
    omega
  have hrest : (limb.toNat + 4294967296 * n) / 4294967296 = n := by omega
  rw [limbsOf, if_neg h, hdigit, hrest]

/-- Trimming drops zeros and no value: what is left are the limbs of the
number. -/
theorem trim_eq_limbsOf : ∀ (l : List UInt32), trim l = limbsOf (magnitude l) := by
  intro l
  induction l with
  | nil => exact limbsOf_zero.symm
  | cons limb rest ih =>
      unfold trim
      rw [ih]
      simp only [magnitude]
      by_cases hrest : magnitude rest = 0
      · rw [hrest, limbsOf_zero]
        by_cases hlimb : limb = 0
        · subst hlimb
          exact limbsOf_zero.symm
        · have hne : limb.toNat + 4294967296 * 0 ≠ 0 := by
            intro h
            exact hlimb (UInt32.toNat_inj.mp (by simpa using h))
          rw [limbsOf_cons hne, limbsOf_zero]
          exact if_neg hlimb
      · rw [limbsOf_cons (by omega)]
        cases hkept : limbsOf (magnitude rest) with
        | nil =>
            rw [limbsOf, if_neg hrest] at hkept
            cases hkept
        | cons kept more => rfl

/-- The limbs of a number denote the number. -/
theorem magnitude_limbsOf (n : Nat) : magnitude (limbsOf n) = n := by
  induction n using Nat.strongRecOn with
  | ind n ih =>
      rw [limbsOf]
      split
      · next hzero =>
        subst hzero
        rfl
      · next hne =>
        have hlow : n.toUInt32.toNat = n % 4294967296 := UInt32.toNat_ofNat'
        simp only [magnitude]
        rw [ih (n / 4294967296) (by omega)]
        omega

/-- No zero limb stands at the significant end. -/
def Trimmed (l : List UInt32) : Prop := l.getLast? ≠ some 0

theorem trimmed_limbsOf (n : Nat) : Trimmed (limbsOf n) := by
  induction n using Nat.strongRecOn with
  | ind n ih =>
      unfold Trimmed
      rw [limbsOf]
      split
      · intro h
        cases h
      · next hne =>
        have hlow : n.toUInt32.toNat = n % 4294967296 := UInt32.toNat_ofNat'
        have hih := ih (n / 4294967296) (by omega)
        rw [List.getLast?_cons]
        unfold Trimmed at hih
        cases hlast : (limbsOf (n / 4294967296)).getLast? with
        | some last =>
            rw [hlast] at hih
            exact hih
        | none =>
            intro h
            rw [List.getLast?_eq_none_iff] at hlast
            have hzero : n / 4294967296 = 0 := by
              rw [← magnitude_limbsOf (n / 4294967296), hlast]
              rfl
            have hdigit : n.toUInt32 = 0 := Option.some_inj.mp h
            rw [hdigit] at hlow
            have : (0 : UInt32).toNat = 0 := rfl
            omega

theorem Trimmed.tail {limb next : UInt32} {rest : List UInt32}
    (trimmed : Trimmed (limb :: next :: rest)) : Trimmed (next :: rest) := by
  unfold Trimmed at trimmed ⊢
  rwa [List.getLast?_cons_cons] at trimmed

/-- Trimmed limbs are the limbs of the number that they denote. -/
theorem Trimmed.eq_limbsOf : ∀ {l : List UInt32}, Trimmed l → l = limbsOf (magnitude l) := by
  intro l
  induction l with
  | nil => intro _; exact limbsOf_zero.symm
  | cons limb rest ih =>
      intro trimmed
      cases rest with
      | nil =>
          have hlimb : limb ≠ 0 := fun h => trimmed (congrArg some h)
          have hne : limb.toNat + 4294967296 * 0 ≠ 0 := by
            intro h
            exact hlimb (UInt32.toNat_inj.mp (by simpa using h))
          rw [magnitude, magnitude, limbsOf_cons hne, limbsOf_zero]
      | cons next more =>
          have hrest := ih trimmed.tail
          have hne : magnitude (next :: more) ≠ 0 := by
            intro h
            rw [h, limbsOf_zero] at hrest
            cases hrest
          rw [magnitude, limbsOf_cons (by omega), ← hrest]

-- ==================================================================== order

theorem magnitude_lt_pow : ∀ (l : List UInt32), magnitude l < 4294967296 ^ l.length := by
  intro l
  induction l with
  | nil => decide
  | cons limb rest ih =>
      have hlimb : limb.toNat < 4294967296 := limb.toNat_lt
      rw [magnitude, List.length_cons, Nat.pow_succ]
      omega

/-- A trimmed number has all the digits that its length says. -/
theorem Trimmed.pow_le_magnitude : ∀ {l : List UInt32} {n : Nat}, Trimmed l →
    l.length = n + 1 → 4294967296 ^ n ≤ magnitude l := by
  intro l
  induction l with
  | nil => intro n _ h; cases h
  | cons limb rest ih =>
      intro n trimmed h
      cases rest with
      | nil =>
          have hlimb : limb ≠ 0 := fun h => trimmed (congrArg some h)
          have hne : limb.toNat ≠ 0 := fun h => hlimb (UInt32.toNat_inj.mp h)
          obtain rfl : n = 0 := by simpa using h.symm
          rw [magnitude, magnitude, Nat.pow_zero]
          omega
      | cons next more =>
          obtain ⟨n, rfl⟩ : ∃ k, n = k + 1 := ⟨more.length, by simpa using h.symm⟩
          have hrest := ih trimmed.tail (Nat.succ.inj h)
          rw [magnitude, Nat.pow_succ]
          omega

theorem compare_limb (a b : UInt32) : compare a b = compare a.toNat b.toNat := by
  show compareOfLessAndEq a b = compareOfLessAndEq a.toNat b.toNat
  unfold compareOfLessAndEq
  simp only [UInt32.lt_iff_toNat_lt, ← UInt32.toNat_inj]

/-- The digits that count more decide first. -/
theorem compare_digits {a b : Nat} (ha : a < 4294967296) (hb : b < 4294967296) (m n : Nat) :
    (compare m n).then (compare a b) = compare (a + 4294967296 * m) (b + 4294967296 * n) := by
  rcases Nat.lt_trichotomy m n with h | rfl | h
  · have hless : a + 4294967296 * m < b + 4294967296 * n := by omega
    rw [Nat.compare_eq_lt.mpr h, Nat.compare_eq_lt.mpr hless]
    rfl
  · rw [Nat.compare_eq_eq.mpr rfl]
    show compare a b = _
    rcases Nat.lt_trichotomy a b with h | rfl | h
    · rw [Nat.compare_eq_lt.mpr h, Nat.compare_eq_lt.mpr (Nat.add_lt_add_right h _)]
    · rw [Nat.compare_eq_eq.mpr rfl, Nat.compare_eq_eq.mpr rfl]
    · rw [Nat.compare_eq_gt.mpr h, Nat.compare_eq_gt.mpr (Nat.add_lt_add_right h _)]
  · have hless : b + 4294967296 * n < a + 4294967296 * m := by omega
    rw [Nat.compare_eq_gt.mpr h, Nat.compare_eq_gt.mpr hless]
    rfl

theorem compareLimbs_eq : ∀ (as bs : List UInt32), as.length = bs.length →
    compareLimbs as bs = compare (magnitude as) (magnitude bs) := by
  intro as
  induction as with
  | nil =>
      intro bs h
      obtain rfl := List.length_eq_zero_iff.mp h.symm
      rfl
  | cons a as ih =>
      intro bs h
      cases bs with
      | nil => cases h
      | cons b bs =>
          unfold compareLimbs
          rw [ih bs (Nat.succ.inj h), compare_limb, compare_digits a.toNat_lt b.toNat_lt]
          rfl

/-- A trimmed number with fewer limbs is smaller. -/
theorem magnitude_lt_of_length_lt {as bs : List UInt32} (trimmed : Trimmed bs)
    (h : as.length < bs.length) : magnitude as < magnitude bs := by
  obtain ⟨n, hn⟩ := Nat.exists_eq_add_of_lt h
  calc magnitude as < 4294967296 ^ as.length := magnitude_lt_pow as
    _ ≤ 4294967296 ^ (as.length + n) := Nat.pow_le_pow_right (by decide) (Nat.le_add_right _ _)
    _ ≤ magnitude bs := trimmed.pow_le_magnitude hn

/-- The order of trimmed magnitudes is the order of the numbers. -/
theorem compareMagnitudes_eq {as bs : List UInt32} (ha : Trimmed as) (hb : Trimmed bs) :
    compareMagnitudes as bs = compare (magnitude as) (magnitude bs) := by
  unfold compareMagnitudes
  rcases Nat.lt_trichotomy as.length bs.length with h | h | h
  · rw [Nat.compare_eq_lt.mpr h, Nat.compare_eq_lt.mpr (magnitude_lt_of_length_lt hb h)]
    rfl
  · rw [Nat.compare_eq_eq.mpr h, compareLimbs_eq as bs h]
    rfl
  · rw [Nat.compare_eq_gt.mpr h, Nat.compare_eq_gt.mpr (magnitude_lt_of_length_lt ha h)]
    rfl

end ObjectModel.Bignum
