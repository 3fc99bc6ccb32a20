/-
The numeral of a big integer is the decimal one.

One pass of long division leaves limbs that denote the quotient, and the
remainder (`magnitude_divChunk`); its words lose nothing (`divChunkChecked?_eq`).
The quotient is smaller, so the passes come to an end. `Groups` says which
groups of nine digits they make until then, without the fuel that `chunks`
counts down, and the fuel is never used up (`groups_chunks`). Put together, the
first group as it is and zeros in front of the others, the groups are the
decimal digits of the magnitude (`Groups.joinChunks_eq`).
-/
import ObjectModel.Bignum.Numeral
import ObjectModel.Proofs.Bignum.Checked

namespace ObjectModel.Bignum

variable {x : Bignum} {limbs : List UInt32} {groups : List UInt64}

-- =================================================================== one pass

/-- The remainder moved up by a limb, if no digit of it is lost. -/
def shifted? (remainder : UInt64) : Option UInt64 :=
  if remainder.toNat < 4294967296 then some (remainder <<< 32) else none

/-- A pass of long division in checked words. -/
def divChunkChecked? : List UInt32 → Option (List UInt32 × UInt64)
  | [] => some ([], 0)
  | limb :: rest => do
    let (quotient, remainder) ← divChunkChecked? rest
    let high ← shifted? remainder
    let current := high ||| limb.toUInt64
    let digit ← limb? (current / chunk)
    return (digit :: quotient, current % chunk)

theorem toNat_chunk : chunk.toNat = 1000000000 := rfl

/-- A remainder and the next limb make a word. -/
theorem toNat_current {remainder : UInt64} (limb : UInt32)
    (h : remainder.toNat < 1000000000) :
    (remainder <<< 32 ||| limb.toUInt64).toNat = 4294967296 * remainder.toNat + limb.toNat := by
  have hlimb : limb.toNat < 2 ^ 32 := limb.toNat_lt
  have hhigh : (remainder <<< 32).toNat = remainder.toNat <<< 32 := by
    have hshift : remainder.toNat <<< 32 = remainder.toNat * 2 ^ 32 := Nat.shiftLeft_eq _ _
    rw [UInt64.toNat_shiftLeft]
    refine Nat.mod_eq_of_lt ?_
    show remainder.toNat <<< 32 < 2 ^ 64
    omega
  rw [UInt64.toNat_or, hhigh, UInt32.toNat_toUInt64, ← Nat.shiftLeft_add_eq_or_of_lt hlimb,
    Nat.shiftLeft_eq, Nat.mul_comm]

/-- The word divided by the chunk is a limb. -/
theorem toNat_digit {remainder : UInt64} (limb : UInt32) (h : remainder.toNat < 1000000000) :
    ((remainder <<< 32 ||| limb.toUInt64) / chunk).toNat < 4294967296 := by
  have hlimb : limb.toNat < 4294967296 := limb.toNat_lt
  rw [UInt64.toNat_div, toNat_current limb h, toNat_chunk]
  omega

/-- A pass divides. -/
theorem magnitude_divChunk (limbs : List UInt32) :
    magnitude limbs = 1000000000 * magnitude (divChunk limbs).1 + (divChunk limbs).2.toNat
      ∧ (divChunk limbs).2.toNat < 1000000000 := by
  induction limbs with
  | nil => decide
  | cons limb rest ih =>
      obtain ⟨hvalue, hsmall⟩ := ih
      have hcurrent := toNat_current limb hsmall
      have hfits := toNat_digit limb hsmall
      unfold divChunk
      dsimp only
      generalize (divChunk rest).2 <<< 32 ||| limb.toUInt64 = current at hcurrent hfits ⊢
      have hdigit : (current / chunk).toUInt32.toNat = current.toNat / 1000000000 := by
        rw [UInt64.toNat_toUInt32, Nat.mod_eq_of_lt hfits, UInt64.toNat_div, toNat_chunk]
      have hmod : (current % chunk).toNat = current.toNat % 1000000000 := by
        rw [UInt64.toNat_mod, toNat_chunk]
      simp only [magnitude]
      omega

/-- No cast of a pass loses a bit. -/
theorem divChunkChecked?_eq (limbs : List UInt32) :
    divChunkChecked? limbs = some (divChunk limbs) := by
  induction limbs with
  | nil => rfl
  | cons limb rest ih =>
      have hsmall := (magnitude_divChunk rest).2
      have hshifted : shifted? (divChunk rest).2 = some ((divChunk rest).2 <<< 32) :=
        if_pos (by omega)
      unfold divChunkChecked? divChunk
      rw [ih]
      dsimp only [bind, Option.bind]
      rw [hshifted]
      dsimp only
      rw [limb?_eq (toNat_digit limb hsmall)]
      rfl

-- =================================================================== all passes

/-- The groups of digits that passes of division make of limbs, until all limbs
are zero. -/
inductive Groups : List UInt32 → List UInt64 → Prop
  | done {limbs : List UInt32} (zero : limbs.all (· == 0) = true) : Groups limbs []
  | divide {limbs : List UInt32} {groups : List UInt64}
      (nonzero : limbs.all (· == 0) = false) (rest : Groups (divChunk limbs).1 groups) :
      Groups limbs ((divChunk limbs).2 :: groups)

theorem all_zero_iff (limbs : List UInt32) :
    limbs.all (· == 0) = true ↔ magnitude limbs = 0 := by
  induction limbs with
  | nil => exact iff_of_true rfl rfl
  | cons limb rest ih =>
      have hlimb : limb = 0 ↔ limb.toNat = 0 := UInt32.toNat_inj.symm
      rw [List.all_cons, Bool.and_eq_true, beq_iff_eq, ih, hlimb, magnitude]
      omega

/-- Limbs that are not all zero get smaller by a pass. -/
theorem magnitude_divChunk_lt (nonzero : magnitude limbs ≠ 0) :
    magnitude (divChunk limbs).1 < magnitude limbs := by
  obtain ⟨hvalue, -⟩ := magnitude_divChunk limbs
  omega

/-- Division comes to an end. -/
theorem exists_groups (limbs : List UInt32) : ∃ groups, Groups limbs groups := by
  induction hn : magnitude limbs using Nat.strongRecOn generalizing limbs with
  | ind n ih =>
      subst hn
      cases hall : limbs.all (· == 0) with
      | true => exact ⟨[], .done hall⟩
      | false =>
          have nonzero : magnitude limbs ≠ 0 := by
            rw [Ne, ← all_zero_iff, hall]
            exact Bool.false_ne_true
          obtain ⟨groups, hrest⟩ := ih _ (magnitude_divChunk_lt nonzero) _ rfl
          exact ⟨_, .divide hall hrest⟩

namespace Groups

/-- Every group is worth nine digits. -/
theorem length_le (made : Groups limbs groups) {k : Nat}
    (h : magnitude limbs < 1000000000 ^ k) : groups.length ≤ k := by
  induction made generalizing k with
  | done => exact Nat.zero_le k
  | @divide limbs groups nonzero rest ih =>
      obtain ⟨hvalue, -⟩ := magnitude_divChunk limbs
      cases k with
      | zero =>
          rw [Nat.pow_zero, Nat.lt_one_iff, ← all_zero_iff, nonzero] at h
          cases h
      | succ k =>
          rw [Nat.pow_succ] at h
          exact Nat.succ_le_succ (ih (by omega))

/-- With fuel for every group, the groups are found. -/
theorem chunks_eq (made : Groups limbs groups) {fuel : Nat} (enough : groups.length ≤ fuel) :
    chunks fuel limbs = groups := by
  induction made generalizing fuel with
  | done zero =>
      cases fuel with
      | zero => rfl
      | succ fuel =>
          unfold chunks
          rw [if_pos zero]
  | divide nonzero rest ih =>
      cases fuel with
      | zero => cases enough
      | succ fuel =>
          unfold chunks
          rw [nonzero, if_neg Bool.false_ne_true]
          exact congrArg _ (ih (Nat.le_of_succ_le_succ enough))

end Groups

/-- A limb is less than two groups, so the fuel is enough. -/
theorem groups_chunks (limbs : List UInt32) :
    Groups limbs (chunks (2 * limbs.length) limbs) := by
  obtain ⟨groups, hmade⟩ := exists_groups limbs
  have hbound : magnitude limbs < 1000000000 ^ (2 * limbs.length) := by
    calc magnitude limbs < 4294967296 ^ limbs.length := magnitude_lt_pow limbs
      _ ≤ (1000000000 ^ 2) ^ limbs.length := Nat.pow_le_pow_left (by decide) _
      _ = 1000000000 ^ (2 * limbs.length) := (Nat.pow_mul ..).symm
  rw [hmade.chunks_eq (hmade.length_le hbound)]
  exact hmade

-- ====================================================================== digits

/-- The last decimal digits of a number, as many as asked for. -/
def lastDigits : Nat → Nat → List Char
  | 0, _ => []
  | k + 1, n => lastDigits k (n / 10) ++ [(n % 10).digitChar]

theorem toDigits_append_lastDigits (k : Nat) {q r : Nat} (pos : 0 < q) (h : r < 10 ^ k) :
    Nat.toDigits 10 (10 ^ k * q + r) = Nat.toDigits 10 q ++ lastDigits k r := by
  induction k generalizing r with
  | zero =>
      obtain rfl : r = 0 := by omega
      simp [lastDigits]
  | succ k ih =>
      have hrest : r / 10 < 10 ^ k := by
        rw [Nat.pow_succ] at h
        omega
      have hsplit : 10 ^ (k + 1) * q + r = 10 * (10 ^ k * q + r / 10) + r % 10 := by
        rw [Nat.pow_succ, Nat.mul_comm (10 ^ k) 10, Nat.mul_assoc]
        omega
      have hpos : 0 < 10 ^ k * q + r / 10 :=
        Nat.add_pos_left (Nat.mul_pos (Nat.pow_pos (by decide)) pos) _
      have hlast : r % 10 < 10 := Nat.mod_lt _ (by decide)
      rw [hsplit, ← Nat.toDigits_append_toDigits (by decide) hpos hlast, ih hrest,
        Nat.toDigits_of_lt_base hlast, lastDigits, List.append_assoc]

theorem lastDigits_zero (k : Nat) : lastDigits k 0 = List.replicate k '0' := by
  induction k with
  | zero => rfl
  | succ k ih =>
      rw [lastDigits, Nat.zero_div, ih, List.replicate_succ']
      rfl

/-- The last digits are all digits, with zeros in front. -/
theorem lastDigits_eq (k : Nat) {n : Nat} (h : n < 10 ^ (k + 1)) :
    lastDigits (k + 1) n
      = List.replicate (k + 1 - (Nat.toDigits 10 n).length) '0' ++ Nat.toDigits 10 n := by
  induction k generalizing n with
  | zero =>
      have hdigit : n < 10 := h
      rw [Nat.toDigits_of_lt_base hdigit, lastDigits, Nat.mod_eq_of_lt hdigit]
      rfl
  | succ k ih =>
      rw [lastDigits]
      rcases Nat.lt_or_ge n 10 with hdigit | hmore
      · rw [Nat.toDigits_of_lt_base hdigit, Nat.mod_eq_of_lt hdigit, Nat.div_eq_of_lt hdigit,
          lastDigits_zero]
        rfl
      · have hrest : n / 10 < 10 ^ (k + 1) := by
          rw [Nat.pow_succ] at h
          omega
        rw [ih hrest, Nat.toDigits_of_base_le (by decide) hmore, List.length_append,
          List.length_singleton, Nat.add_sub_add_right, List.append_assoc]

theorem nineDigits_eq {n : UInt64} (h : n.toNat < 1000000000) :
    nineDigits n = lastDigits 9 n.toNat := (lastDigits_eq 8 h).symm

theorem joinChunks_concat {first : List UInt64} (nonempty : first ≠ []) (last : UInt64) :
    joinChunks (first ++ [last]) = joinChunks first ++ nineDigits last := by
  cases first with
  | nil => exact absurd rfl nonempty
  | cons head rest =>
      show Nat.toDigits 10 head.toNat ++ (rest ++ [last]).flatMap nineDigits
        = Nat.toDigits 10 head.toNat ++ rest.flatMap nineDigits ++ nineDigits last
      rw [List.flatMap_append, List.flatMap_singleton, List.append_assoc]

/-- Put together, the groups are the decimal digits. -/
theorem Groups.joinChunks_eq (made : Groups limbs groups) (nonzero : magnitude limbs ≠ 0) :
    joinChunks groups.reverse = Nat.toDigits 10 (magnitude limbs) := by
  induction made with
  | done zero => exact absurd ((all_zero_iff _).mp zero) nonzero
  | @divide limbs groups _ rest ih =>
      obtain ⟨hvalue, hsmall⟩ := magnitude_divChunk limbs
      rw [List.reverse_cons]
      cases rest with
      | done zero =>
          -- the last pass leaves the first group
          rw [(all_zero_iff _).mp zero, Nat.mul_zero, Nat.zero_add] at hvalue
          rw [hvalue]
          exact List.append_nil _
      | divide more rest =>
          have hpos : magnitude (divChunk limbs).1 ≠ 0 := by
            rw [Ne, ← all_zero_iff, more]
            exact Bool.false_ne_true
          rw [joinChunks_concat (by simp), ih hpos, nineDigits_eq hsmall, hvalue]
          exact (toDigits_append_lastDigits 9 (Nat.pos_of_ne_zero hpos) hsmall).symm

-- ===================================================================== numerals

theorem Normal.limbs_eq_nil_iff (h : x.Normal) : x.limbs = [] ↔ x.toInt = 0 := by
  rw [h.eq_ofInt, toInt_ofInt]
  exact limbsOf_eq_nil.trans Int.natAbs_eq_zero

theorem natAbs_toInt (x : Bignum) : x.toInt.natAbs = magnitude x.limbs := by
  unfold toInt
  split
  · rw [Int.natAbs_neg, Int.natAbs_natCast]
  · rw [Int.natAbs_natCast]

theorem Normal.negative_iff (h : x.Normal) : x.negative = true ↔ x.toInt < 0 := by
  have hpos := h.magnitude_pos
  unfold toInt
  cases hnegative : x.negative with
  | false =>
      simp only [if_false, reduceCtorEq, false_iff]
      omega
  | true =>
      have hlt := hpos hnegative
      simp only [if_true, true_iff]
      omega

/-- A minus sign if the integer is negative, then the digits of its magnitude. -/
theorem Normal.numeral_eq (h : x.Normal) :
    x.numeral = (if x.toInt < 0 then ['-'] else []) ++ Nat.toDigits 10 x.toInt.natAbs := by
  unfold numeral
  rw [natAbs_toInt]
  by_cases hnil : x.limbs = []
  · have hzero : x.toInt = 0 := h.limbs_eq_nil_iff.mp hnil
    rw [hnil, hzero, if_neg (Int.lt_irrefl 0)]
    rfl
  · have hpos : magnitude x.limbs ≠ 0 := by
      rw [← natAbs_toInt, Int.natAbs_ne_zero]
      exact fun hzero => hnil (h.limbs_eq_nil_iff.mpr hzero)
    rw [List.isEmpty_eq_false_iff.mpr hnil, if_neg Bool.false_ne_true,
      (groups_chunks x.limbs).joinChunks_eq hpos]
    simp only [h.negative_iff]

/-- The text is the one that the integer has. -/
theorem Normal.toText_eq (h : x.Normal) : x.toText = toString x.toInt := by
  unfold toText
  rw [h.numeral_eq, Int.toString_eq_repr, Int.repr_eq_if, String.ofList_append,
    ← Nat.repr_eq_ofList_toDigits]
  by_cases hnegative : x.toInt < 0
  · have habs : x.toInt.natAbs = (-x.toInt).toNat := by omega
    rw [if_pos hnegative, if_neg (Int.not_le.mpr hnegative), habs]
  · have habs : x.toInt.natAbs = x.toInt.toNat := by omega
    rw [if_neg hnegative, if_pos (Int.not_lt.mp hnegative), habs, String.ofList_nil,
      String.empty_append]

-- ---------------------------------------------------------------- reading back

/-- Only the digits of zero begin with a zero. -/
theorem head?_toDigits_ne {n : Nat} (pos : n ≠ 0) : (Nat.toDigits 10 n).head? ≠ some '0' := by
  induction n using Nat.base_induction 10 (by decide) with
  | single n hn =>
      rw [Nat.toDigits_of_lt_base hn, List.head?_cons]
      exact fun h => pos (Nat.digitChar_eq_zero.mp (Option.some.inj h))
  | digit n d hd hn ih =>
      rw [← Nat.toDigits_append_toDigits (by decide) hn hd,
        List.head?_append, Option.or_of_isSome (List.isSome_head?.mpr Nat.toDigits_ne_nil)]
      exact ih (Nat.ne_of_gt hn)

theorem readDigits?_of_isDigit {digits : List Char} (nonempty : digits ≠ [])
    (h : ∀ c ∈ digits, c.isDigit = true) :
    readDigits? digits = some (Nat.ofDigitChars 10 digits 0) := by
  have hfold : ∀ (l : List Char) (n : Nat), (∀ c ∈ l, c.isDigit = true) →
      l.foldlM (fun n c =>
        if '0' ≤ c ∧ c ≤ '9' then some (10 * n + (c.toNat - '0'.toNat)) else none) n
        = some (Nat.ofDigitChars 10 l n) := by
    intro l
    induction l with
    | nil => intro n _; rfl
    | cons c l ih =>
        intro n h
        have hc : '0' ≤ c ∧ c ≤ '9' := by
          have hdigit := h c List.mem_cons_self
          rw [Char.isDigit, Bool.and_eq_true, decide_eq_true_eq, decide_eq_true_eq] at hdigit
          exact hdigit
        rw [List.foldlM_cons, if_pos hc, Nat.ofDigitChars_cons]
        exact ih _ fun d mem => h d (List.mem_cons_of_mem _ mem)
  cases digits with
  | nil => exact absurd rfl nonempty
  | cons c rest => exact hfold (c :: rest) 0 h

theorem readDigits?_toDigits (n : Nat) : readDigits? (Nat.toDigits 10 n) = some n := by
  rw [readDigits?_of_isDigit Nat.toDigits_ne_nil, Nat.ofDigitChars_ten_toDigits]
  exact fun c mem => Nat.isDigit_of_mem_toDigits (by decide) (by decide) mem

theorem readNumeral?_minus {digits : List Char} {n : Nat} (h : readDigits? digits = some n) :
    readNumeral? ('-' :: digits) = some (-(n : Int)) := by
  simp only [readNumeral?, h]
  rfl

theorem readNumeral?_plain {c : Char} {rest : List Char} {n : Nat} (plain : c ≠ '-')
    (h : readDigits? (c :: rest) = some n) : readNumeral? (c :: rest) = some (n : Int) := by
  unfold readNumeral?
  split
  · next heq => exact absurd (List.cons.inj heq).1 plain
  · rw [h]
    rfl

/-- The numeral of an integer: a minus sign exactly if it is negative, then at
least one digit, the first one zero only in `0`. It is read as the integer. -/
structure IsNumeral (z : Int) (text : List Char) : Prop where
  minus : text.head? = some '-' ↔ z < 0
  digits : ∃ digits, text = (if z < 0 then ['-'] else []) ++ digits ∧ digits ≠ []
    ∧ (∀ c ∈ digits, c.isDigit = true) ∧ (digits.head? = some '0' ↔ z = 0)
  zero : text = ['0'] ↔ z = 0
  read : readNumeral? text = some z

theorem isNumeral_toDigits (z : Int) :
    IsNumeral z ((if z < 0 then ['-'] else []) ++ Nat.toDigits 10 z.natAbs) := by
  have hdigit : ∀ c ∈ Nat.toDigits 10 z.natAbs, c.isDigit = true :=
    fun c mem => Nat.isDigit_of_mem_toDigits (by decide) (by decide) mem
  have hhead : (Nat.toDigits 10 z.natAbs).head? = some '0' ↔ z = 0 := by
    constructor
    · intro h
      by_contra hne
      exact head?_toDigits_ne (Int.natAbs_ne_zero.mpr hne) h
    · rintro rfl
      rfl
  obtain ⟨c, rest, hcons⟩ := List.exists_cons_of_ne_nil
    (Nat.toDigits_ne_nil (n := z.natAbs) (b := 10))
  have hne : c ≠ '-' := by
    rintro rfl
    have hminus := hdigit '-' (by rw [hcons]; exact List.mem_cons_self)
    cases hminus
  have hread := readDigits?_toDigits z.natAbs
  rw [hcons] at hdigit hhead hread ⊢
  by_cases hnegative : z < 0
  · rw [if_pos hnegative]
    refine ⟨iff_of_true rfl hnegative,
      ⟨_, by rw [if_pos hnegative], List.cons_ne_nil _ _, hdigit, hhead⟩, ?_, ?_⟩
    · refine iff_of_false (fun h => ?_) (Int.ne_of_lt hnegative)
      cases h
    · have habs : -(z.natAbs : Int) = z := by omega
      exact (readNumeral?_minus hread).trans (congrArg some habs)
  · rw [if_neg hnegative]
    refine ⟨iff_of_false (fun h => hne (Option.some.inj h)) hnegative,
      ⟨_, by rw [if_neg hnegative], List.cons_ne_nil _ _, hdigit, hhead⟩, ?_, ?_⟩
    · constructor
      · intro h
        exact hhead.mp (congrArg List.head? h)
      · rintro rfl
        exact hcons.symm
    · have habs : (z.natAbs : Int) = z := by omega
      exact (readNumeral?_plain hne hread).trans (congrArg some habs)

/-- The text of a normal big integer is the decimal numeral of its integer.
Division ends, with the groups that the text is made of, and no cast of any pass
loses a bit. -/
theorem numeral_canonical (h : x.Normal) :
    x.toText = toString x.toInt ∧ IsNumeral x.toInt x.numeral
      ∧ Groups x.limbs (chunks (2 * x.limbs.length) x.limbs)
      ∧ ∀ limbs, divChunkChecked? limbs = some (divChunk limbs) := by
  refine ⟨h.toText_eq, ?_, groups_chunks x.limbs, divChunkChecked?_eq⟩
  rw [h.numeral_eq]
  exact isNumeral_toDigits x.toInt

/-- The groups but the first begin with zeros, and one is zero altogether. -/
theorem numeral_canonical_of_zeros :
    let x := ofInt (-7000000000000000000000000042)
    x.Normal ∧ x.toText = "-7000000000000000000000000042" ∧ IsNumeral x.toInt x.numeral
      ∧ Groups x.limbs (chunks (2 * x.limbs.length) x.limbs)
      ∧ ∀ limbs, divChunkChecked? limbs = some (divChunk limbs) := by
  intro x
  have hnormal : x.Normal := normal_ofInt _
  obtain ⟨htext, hrest⟩ := numeral_canonical hnormal
  refine ⟨hnormal, htext.trans ?_, hrest⟩
  rw [toInt_ofInt]
  rfl

end ObjectModel.Bignum
