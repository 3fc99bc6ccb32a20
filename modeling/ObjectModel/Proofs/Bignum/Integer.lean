/-
Big integers are integers.

`Normal` representations are the ones that `ofInt` writes down, one for every
integer (`Normal.eq_ofInt`). Every operation ends by putting a sign and limbs
into normal form, so each comes down to what the limbs denote: the result of an
operation on normal numbers is `ofInt` of the operation on integers, and their
order is the order of the integers.
-/
import ObjectModel.Proofs.Bignum.Magnitude

namespace ObjectModel.Bignum

/-- No zero limb stands at the significant end, and zero is not negative. -/
structure Normal (x : Bignum) : Prop where
  trimmed : Trimmed x.limbs
  zero_sign : x.limbs = [] → x.negative = false

variable {x y : Bignum}

-- ================================================================ normal form

theorem toInt_ofInt (i : Int) : (ofInt i).toInt = i := by
  show (if decide (i < 0) then -(magnitude (limbsOf i.natAbs) : Int)
    else magnitude (limbsOf i.natAbs)) = i
  rw [magnitude_limbsOf]
  by_cases h : i < 0
  · rw [if_pos (decide_eq_true h)]
    omega
  · rw [if_neg (by simpa using h)]
    omega

theorem limbsOf_eq_nil {n : Nat} : limbsOf n = [] ↔ n = 0 := by
  constructor
  · intro h
    rw [← magnitude_limbsOf n, h]
    rfl
  · intro heq
    subst heq
    exact limbsOf_zero

theorem normal_ofInt (i : Int) : (ofInt i).Normal where
  trimmed := trimmed_limbsOf _
  zero_sign h := by
    have hzero : i.natAbs = 0 := limbsOf_eq_nil.mp h
    show decide (i < 0) = false
    rw [decide_eq_false_iff_not]
    omega

/-- A sign and limbs in normal form are the integer that they denote, written
down. -/
theorem normal_eq_ofInt (negative : Bool) (limbs : List UInt32) :
    normal negative limbs
      = ofInt (if negative then -(magnitude limbs : Int) else magnitude limbs) := by
  unfold normal ofInt
  rw [trim_eq_limbsOf]
  cases negative with
  | false =>
      rw [if_neg Bool.false_ne_true, Int.natAbs_natCast, Bool.false_and,
        decide_eq_false (by omega)]
  | true =>
      rw [if_pos rfl, Int.natAbs_neg, Int.natAbs_natCast, Bool.true_and]
      congr 1
      by_cases hzero : magnitude limbs = 0
      · rw [hzero, limbsOf_zero]
        rfl
      · have hne : limbsOf (magnitude limbs) ≠ [] := fun h => hzero (limbsOf_eq_nil.mp h)
        rw [List.isEmpty_eq_false_iff.mpr hne]
        exact (decide_eq_true (by omega)).symm

/-- A normal representation is the one that its integer is written down in. -/
theorem Normal.eq_ofInt (h : x.Normal) : x = ofInt x.toInt := by
  obtain ⟨negative, limbs⟩ := x
  have hlimbs : limbs = limbsOf (magnitude limbs) := h.trimmed.eq_limbsOf
  have hnormal : normal negative limbs = ⟨negative, limbs⟩ := by
    unfold normal
    rw [trim_eq_limbsOf, ← hlimbs]
    congr 1
    by_cases hnil : limbs = []
    · obtain rfl : negative = false := h.zero_sign hnil
      rfl
    · rw [List.isEmpty_eq_false_iff.mpr hnil, Bool.not_false, Bool.and_true]
  rw [← hnormal, normal_eq_ofInt, toInt_ofInt]

-- ================================================================= operations

theorem neg_eq (x : Bignum) : x.neg = ofInt (-x.toInt) := by
  unfold neg toInt
  rw [normal_eq_ofInt]
  cases x.negative with
  | false => rfl
  | true => simp

/-- Like signs add and unlike signs subtract, and the sum is exact. -/
theorem add_eq (hx : x.Normal) (hy : y.Normal) : x.add y = ofInt (x.toInt + y.toInt) := by
  have horder := compareMagnitudes_eq hx.trimmed hy.trimmed
  obtain ⟨negative, as⟩ := x
  obtain ⟨negative', bs⟩ := y
  have hsum : magnitude (addLimbs as bs 0) = magnitude as + magnitude bs :=
    magnitude_addLimbs as bs 0 (by decide)
  unfold add toInt
  dsimp only at horder ⊢
  by_cases hsign : negative = negative'
  · subst hsign
    rw [if_pos rfl, normal_eq_ofInt, hsum]
    congr 1
    cases negative
    · simp
    · simp only [if_true]
      omega
  · rw [if_neg hsign]
    by_cases hlt : magnitude as < magnitude bs
    · have hdifference : magnitude (subLimbs bs as false) + magnitude as = magnitude bs :=
        magnitude_subLimbs bs as false (Nat.le_of_lt hlt)
      rw [if_pos (horder.trans (Nat.compare_eq_lt.mpr hlt)), normal_eq_ofInt]
      congr 1
      cases negative
      all_goals cases negative'
      all_goals simp only [if_true, if_false, reduceCtorEq, not_true] at hsign ⊢
      all_goals omega
    · have hdifference : magnitude (subLimbs as bs false) + magnitude bs = magnitude as :=
        magnitude_subLimbs as bs false (Nat.le_of_not_lt hlt)
      rw [if_neg fun h => hlt (Nat.compare_eq_lt.mp (horder.symm.trans h)), normal_eq_ofInt]
      congr 1
      cases negative
      all_goals cases negative'
      all_goals simp only [if_true, if_false, reduceCtorEq, not_true] at hsign ⊢
      all_goals omega

theorem sub_eq (hx : x.Normal) (y : Bignum) : x.sub y = ofInt (x.toInt - y.toInt) := by
  have hneg : y.neg.Normal := by
    rw [neg_eq]
    exact normal_ofInt _
  unfold sub
  rw [add_eq hx hneg, neg_eq, toInt_ofInt, Int.sub_eq_add_neg]

theorem mul_eq (x y : Bignum) : x.mul y = ofInt (x.toInt * y.toInt) := by
  obtain ⟨negative, as⟩ := x
  obtain ⟨negative', bs⟩ := y
  have hproduct := magnitude_mulLimbs as bs [] (Nat.zero_le _)
  rw [magnitude, Nat.zero_add] at hproduct
  unfold mul toInt
  dsimp only
  rw [normal_eq_ofInt, hproduct]
  congr 1
  cases negative
  all_goals cases negative'
  all_goals simp

-- ====================================================================== order

theorem Normal.magnitude_pos (h : x.Normal) (negative : x.negative = true) :
    0 < magnitude x.limbs := by
  refine Nat.pos_of_ne_zero fun hzero => ?_
  have hnil : x.limbs = [] := by
    rw [h.trimmed.eq_limbsOf, hzero, limbsOf_zero]
  rw [h.zero_sign hnil] at negative
  cases negative

theorem compare_natCast (m n : Nat) : compare (m : Int) (n : Int) = compare m n := by
  rcases Nat.lt_trichotomy m n with h | rfl | h
  · rw [Nat.compare_eq_lt.mpr h, Int.compare_eq_lt]
    omega
  · rw [Nat.compare_eq_eq.mpr rfl, Int.compare_eq_eq]
  · rw [Nat.compare_eq_gt.mpr h, Int.compare_eq_gt]
    omega

theorem compare_neg_neg (m n : Nat) : compare (-(m : Int)) (-(n : Int)) = compare n m := by
  rcases Nat.lt_trichotomy n m with h | rfl | h
  · rw [Nat.compare_eq_lt.mpr h, Int.compare_eq_lt]
    omega
  · rw [Nat.compare_eq_eq.mpr rfl, Int.compare_eq_eq]
  · rw [Nat.compare_eq_gt.mpr h, Int.compare_eq_gt]
    omega

/-- The order of normal representations is the order of the integers. -/
theorem cmp_eq (hx : x.Normal) (hy : y.Normal) : x.cmp y = compare x.toInt y.toInt := by
  have hposx := hx.magnitude_pos
  have hposy := hy.magnitude_pos
  obtain ⟨negative, as⟩ := x
  obtain ⟨negative', bs⟩ := y
  unfold cmp toInt
  cases negative with
  | false =>
      cases negative' with
      | false => exact (compareMagnitudes_eq hx.trimmed hy.trimmed).trans (compare_natCast _ _).symm
      | true =>
          refine (Int.compare_eq_gt.mpr ?_).symm
          have hpos : 0 < magnitude bs := hposy rfl
          simp only [if_true, if_false, reduceCtorEq]
          omega
  | true =>
      cases negative' with
      | false =>
          refine (Int.compare_eq_lt.mpr ?_).symm
          have hpos : 0 < magnitude as := hposx rfl
          simp only [if_true, if_false, reduceCtorEq]
          omega
      | true => exact (compareMagnitudes_eq hy.trimmed hx.trimmed).trans (compare_neg_neg _ _).symm

-- ====================================================================== range

/-- Limbs shifted into a word denote the number that the word is, if the word
has room for them. The limbs that went in first never reach its end. -/
theorem toNat_wordOf : ∀ {limbs : List UInt32}, limbs.length ≤ 4 →
    (wordOf limbs).toNat = magnitude limbs := by
  intro limbs
  induction limbs with
  | nil => intro _; rfl
  | cons limb rest ih =>
      intro hlength
      rw [List.length_cons] at hlength
      have hlimb : limb.toNat < 4294967296 := limb.toNat_lt
      have hroom : magnitude rest < 4294967296 ^ 3 :=
        calc magnitude rest < 4294967296 ^ rest.length := magnitude_lt_pow rest
          _ ≤ 4294967296 ^ 3 := Nat.pow_le_pow_right (by decide) (by omega)
      have hshifted : (wordOf rest <<< 32).toNat = magnitude rest <<< 32 := by
        rw [BitVec.toNat_shiftLeft, ih (by omega), Nat.shiftLeft_eq]
        exact Nat.mod_eq_of_lt (by omega)
      have hwide : (limb.toBitVec.setWidth 128).toNat = limb.toNat := by
        rw [BitVec.toNat_setWidth]
        exact Nat.mod_eq_of_lt (by omega)
      rw [wordOf, BitVec.toNat_or, hshifted, hwide, ← Nat.shiftLeft_add_eq_or_of_lt hlimb,
        Nat.shiftLeft_eq, magnitude]
      omega

/-- With five limbs or more a magnitude is out of range. -/
theorem Trimmed.word128Bound_lt {limbs : List UInt32} (trimmed : Trimmed limbs)
    (long : 4 < limbs.length) : word128Bound < magnitude limbs := by
  obtain ⟨n, hn⟩ := Nat.exists_eq_add_of_lt long
  calc word128Bound < 4294967296 ^ 4 := by decide
    _ ≤ 4294967296 ^ (4 + n) := Nat.pow_le_pow_right (by decide) (Nat.le_add_right _ _)
    _ ≤ magnitude limbs := trimmed.pow_le_magnitude hn

/-- A representation fits a word of 128 bits if its integer does. -/
theorem Normal.toWord128?_eq (h : x.Normal) :
    x.toWord128? = if -(word128Bound : Int) ≤ x.toInt ∧ x.toInt < word128Bound then some x.toInt
      else none := by
  obtain ⟨negative, limbs⟩ := x
  unfold toWord128? toInt
  dsimp only
  split
  · next hlength =>
    have hlarge : word128Bound < magnitude limbs := h.trimmed.word128Bound_lt hlength
    refine (if_neg ?_).symm
    split
    · omega
    · omega
  · next hlength =>
    have hword : (wordOf limbs).toNat = magnitude limbs := toNat_wordOf (by omega)
    have hleast : wordOf limbs = 1 <<< 127 ↔ magnitude limbs = word128Bound := by
      rw [← BitVec.toNat_inj, hword]
      rfl
    have hpos : 0 < word128Bound := by decide
    unfold signed?
    rw [hword]
    cases negative with
    | false =>
        simp only [if_false, reduceCtorEq]
        by_cases hfits : magnitude limbs < word128Bound
        · rw [if_pos hfits, if_pos (by omega)]
        · rw [if_neg hfits, if_neg (by omega)]
    | true =>
        simp only [if_true]
        by_cases hequal : magnitude limbs = word128Bound
        · rw [if_pos (hleast.mpr hequal), hequal, if_pos (by omega)]
        · rw [if_neg (hequal ∘ hleast.mp)]
          by_cases hfits : magnitude limbs < word128Bound
          · rw [if_pos hfits, if_pos (by omega)]
            rfl
          · rw [if_neg hfits, if_neg (by omega)]
            rfl

end ObjectModel.Bignum
