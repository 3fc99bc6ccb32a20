/-
Integer arithmetic is exact.

An integer value is a fixnum or a big integer in normal form, of whatever size.
Words of 128 bits and big integers are two ways to one result: where the words
suffice both give the integer of the operation, written down canonically, so
nothing depends on which way was taken. A send to an integer, while its own
primitives are in place, is one step to that result.
-/
import ObjectModel.Proofs.Bignum.Integer
import ObjectModel.Proofs.Boot.Start
import ObjectModel.Proofs.Registry.Lookup

namespace ObjectModel

/-- The integer fits a fixnum. -/
def FitsFixnum (z : Int) : Prop := -9223372036854775808 ≤ z ∧ z < 9223372036854775808

instance (z : Int) : Decidable (FitsFixnum z) := inferInstanceAs (Decidable (_ ∧ _))

namespace Value

/-- The value is this integer, in any form. -/
inductive IsInt : Value → Int → Prop
  | fixnum (n : Fixnum) : IsInt (.fixnum n) n.val
  | bignum {b : Bignum} (normal : b.Normal) : IsInt (.bignum b) b.toInt

/-- The value is this integer, as a fixnum exactly if it fits one. -/
structure Canonical (v : Value) (z : Int) : Prop where
  isInt : v.IsInt z
  fixnum_iff : v.asFixnum?.isSome ↔ FitsFixnum z

variable {v x y : Value} {z a b : Int}

theorem fixnum_ofInt? (z : Int) :
    Fixnum.ofInt? z = if h : FitsFixnum z then some ⟨z, h.1, h.2⟩ else none := rfl

theorem canonical_ofInt (z : Int) : (ofInt z).Canonical z := by
  unfold ofInt
  rw [fixnum_ofInt?]
  by_cases h : FitsFixnum z
  · rw [dif_pos h]
    exact ⟨.fixnum _, by simp [asFixnum?, h]⟩
  · rw [dif_neg h]
    refine ⟨?_, by simp [asFixnum?, h]⟩
    have hint := IsInt.bignum (Bignum.normal_ofInt z)
    rwa [Bignum.toInt_ofInt] at hint

/-- There is one canonical value for an integer. -/
theorem Canonical.eq_ofInt (canonical : v.Canonical z) : v = ofInt z := by
  obtain ⟨isInt, fixnum_iff⟩ := canonical
  unfold ofInt
  rw [fixnum_ofInt?]
  cases isInt with
  | fixnum n => rw [dif_pos (fixnum_iff.mp rfl)]
  | bignum normal =>
      rw [dif_neg (fun h => by simpa [asFixnum?] using fixnum_iff.mpr h)]
      exact congrArg Value.bignum normal.eq_ofInt

-- ============================================================ the two ways

/-- A big result is demoted if it fits a fixnum. -/
theorem ofBignum_ofInt (z : Int) : ofBignum (Bignum.ofInt z) = ofInt z := by
  have hbind : (Bignum.ofInt z).toWord128?.bind Fixnum.ofInt? = Fixnum.ofInt? z := by
    rw [(Bignum.normal_ofInt z).toWord128?_eq, Bignum.toInt_ofInt]
    split
    · rfl
    · next hlarge =>
      have hno : ¬ FitsFixnum z := by
        intro h
        obtain ⟨hlower, hupper⟩ := h
        apply hlarge
        unfold Bignum.word128Bound
        omega
      rw [fixnum_ofInt?, dif_neg hno]
      rfl
  unfold ofBignum ofInt
  rw [hbind]

theorem IsInt.asWord128?_eq (h : v.IsInt z) :
    v.asWord128? = if -(Bignum.word128Bound : Int) ≤ z ∧ z < Bignum.word128Bound then some z
      else none := by
  cases h with
  | fixnum n =>
      refine (if_pos ?_).symm
      have hlower := n.lower
      have hupper := n.upper
      unfold Bignum.word128Bound
      omega
  | bignum normal => exact normal.toWord128?_eq

theorem IsInt.asBignum?_eq (h : v.IsInt z) : v.asBignum? = some (Bignum.ofInt z) := by
  cases h with
  | fixnum n => rfl
  | bignum normal => exact congrArg some normal.eq_ofInt

theorem onBignum_eq (op : Arithmetic) (a b : Int) :
    op.onBignum (Bignum.ofInt a) (Bignum.ofInt b) = Bignum.ofInt (op.onInt a b) := by
  have ha := Bignum.normal_ofInt a
  have hb := Bignum.normal_ofInt b
  cases op with
  | add => exact (Bignum.add_eq ha hb).trans (by rw [Bignum.toInt_ofInt, Bignum.toInt_ofInt]; rfl)
  | sub => exact (Bignum.sub_eq ha _).trans (by rw [Bignum.toInt_ofInt, Bignum.toInt_ofInt]; rfl)
  | mul => exact (Bignum.mul_eq _ _).trans (by rw [Bignum.toInt_ofInt, Bignum.toInt_ofInt]; rfl)

/-- In words or on big integers, the result is the same canonical value. -/
theorem integerResult?_eq (op : Arithmetic) (hx : x.IsInt a) (hy : y.IsInt b) :
    Machine.integerResult? op x y = some (ofInt (op.onInt a b)) := by
  have hbig : ofBignum (op.onBignum (Bignum.ofInt a) (Bignum.ofInt b)) = ofInt (op.onInt a b) := by
    rw [onBignum_eq, ofBignum_ofInt]
  unfold Machine.integerResult?
  rw [hx.asBignum?_eq, hy.asBignum?_eq, hx.asWord128?_eq, hy.asWord128?_eq]
  dsimp only
  rw [hbig]
  split
  · next v hwords =>
    -- both operands and the result fit a word
    split at hwords
    · next a' b' ha hb =>
      obtain rfl := Option.some_inj.mp (Option.ite_none_right_eq_some.mp ha).2
      obtain rfl := Option.some_inj.mp (Option.ite_none_right_eq_some.mp hb).2
      obtain ⟨z, hz, rfl⟩ := Option.map_eq_some_iff.mp hwords
      obtain rfl := Option.some_inj.mp (Option.ite_none_right_eq_some.mp hz).2
      rfl
    · cases hwords
  · rfl

/-- Integers compare as integers, in any form. -/
theorem compareNumbers?_eq (hx : x.IsInt a) (hy : y.IsInt b) :
    Machine.compareNumbers? x y = some (compare a b) := by
  have hbig : (Bignum.ofInt a).cmp (Bignum.ofInt b) = compare a b := by
    rw [Bignum.cmp_eq (Bignum.normal_ofInt a) (Bignum.normal_ofInt b), Bignum.toInt_ofInt,
      Bignum.toInt_ofInt]
  have hasx := hx.asBignum?_eq
  have hasy := hy.asBignum?_eq
  rw [← hbig]
  cases hx with
  | fixnum n =>
      cases hy with
      | fixnum n' => rw [hbig]; rfl
      | bignum _ => simp only [Machine.compareNumbers?, hasx, hasy]
  | bignum _ =>
      cases hy with
      | fixnum n' => simp only [Machine.compareNumbers?, hasx, hasy]
      | bignum _ => simp only [Machine.compareNumbers?, hasx, hasy]

end Value

-- ====================================================================== sends

/-- The primitives of a core type are what its own table binds their names to. -/
def Registry.PrimitivesInPlace (r : Registry) (t : TypeId) : Prop :=
  ∀ p ∈ Core.primitives, p.owner = t →
    (r.record t).methods.get? p.name = some ⟨p.name, p.owner, p.arity, .primitive p.primitive⟩

instance (r : Registry) (t : TypeId) : Decidable (r.PrimitivesInPlace t) :=
  inferInstanceAs (Decidable (∀ p ∈ Core.primitives, p.owner = t → _))

namespace Machine

variable {m : Machine} {x y : Value} {a b : Int}

theorem one_lt_stepBudget (m : Machine) (args : List Value) : 1 < m.stepBudget args := by
  unfold stepBudget
  have hfirst : 0 < (args.length + 1) * (m.methodCount + 2) :=
    Nat.mul_pos (Nat.succ_pos _) (Nat.succ_pos _)
  rw [Nat.mul_assoc]
  omega

/-- A send that ends at once. -/
theorem send_of_finished {natives : Natives} {s : Send} {outcome : Outcome} {m' : Machine}
    (h : step natives m s = (.finished outcome, m')) : m.send natives s = some (outcome, m') := by
  obtain ⟨n, hn⟩ := Nat.exists_eq_add_of_lt (m.one_lt_stepBudget s.args)
  unfold send
  rw [show m.stepBudget s.args = n + 1 + 1 by omega, run, h]

/-- A send that finds a primitive is over in one step. -/
theorem send_primitive {natives : Natives} {s : Send} (method : Method) {p : Primitive}
    {outcome : Outcome} {m' : Machine} (found : m.lookup? s.receiver s.name = some method)
    (body : method.body = .primitive p) (accepts : method.arity.accepts s.args.length = true)
    (performs : m.performPrimitive p s.receiver s.args = (outcome, m')) :
    m.send natives s = some (outcome, m') := by
  refine send_of_finished ?_
  unfold step answerWith
  rw [found]
  dsimp only
  unfold invoke performBody
  rw [if_pos accepts, body]
  dsimp only
  rw [performs]

/-- An operator of integers, while the primitives are in place, does what its
primitive does. -/
theorem send_integer {natives : Natives} (inPlace : m.registry.PrimitivesInPlace Core.integer)
    (hx : x.IsInt a) {p : Core.PrimitiveMethod} (mem : p ∈ Core.primitives)
    (owner : p.owner = Core.integer) (arity : p.arity = .exactly 1) {outcome : Outcome}
    (performs : m.performPrimitive p.primitive x [y] = (outcome, m)) :
    m.send natives ⟨x, p.name, [y]⟩ = some (outcome, m) := by
  have hmeta : m.metaType x = Core.integer := by
    cases hx with
    | fixnum n => rfl
    | bignum _ => rfl
  refine send_primitive ⟨p.name, p.owner, p.arity, .primitive p.primitive⟩ ?_ rfl ?_ performs
  · unfold lookup?
    rw [hmeta]
    exact Registry.findMethod?_own (inPlace p mem owner)
  · rw [arity]
    rfl

theorem integerArithmetic_eq (m : Machine) (op : Arithmetic) (hx : x.IsInt a)
    (hy : y.IsInt b) : m.integerArithmetic op x y = .ok (.ofInt (op.onInt a b)) := by
  have hresult := Value.integerResult?_eq op hx hy
  unfold integerArithmetic
  rw [hresult]
  cases hy with
  | fixnum n => rfl
  | bignum _ => rfl

theorem numericRelation_eq (m : Machine) (rel : Relation) (hx : x.IsInt a) (hy : y.IsInt b) :
    m.numericRelation rel x y = .ok (.bool (rel.accepts (compare a b))) := by
  unfold numericRelation
  rw [Value.compareNumbers?_eq hx hy]

theorem accepts_compare (a b : Int) :
    Relation.equal.accepts (compare a b) = decide (a = b)
      ∧ Relation.less.accepts (compare a b) = decide (a < b)
      ∧ Relation.greater.accepts (compare a b) = decide (b < a) := by
  refine ⟨?_, ?_, ?_⟩
  · rw [Bool.eq_iff_iff, decide_eq_true_eq, ← Int.compare_eq_eq]
    exact beq_iff_eq
  · rw [Bool.eq_iff_iff, decide_eq_true_eq, ← Int.compare_eq_lt]
    exact beq_iff_eq
  · rw [Bool.eq_iff_iff, decide_eq_true_eq, ← Int.compare_eq_gt]
    exact beq_iff_eq

/-- Sums, differences and products of integers in any form are the exact
integers, each as its one canonical value, and relations of integers are
exact. -/
theorem send_integer_exact {natives : Natives}
    (inPlace : m.registry.PrimitivesInPlace Core.integer) (hx : x.IsInt a) (hy : y.IsInt b) :
    (∃ v, m.send natives ⟨x, "+", [y]⟩ = some (.ok v, m) ∧ v.Canonical (a + b)
      ∧ ∀ w : Value, w.Canonical (a + b) → w = v)
    ∧ (∃ v, m.send natives ⟨x, "-", [y]⟩ = some (.ok v, m) ∧ v.Canonical (a - b)
      ∧ ∀ w : Value, w.Canonical (a - b) → w = v)
    ∧ (∃ v, m.send natives ⟨x, "*", [y]⟩ = some (.ok v, m) ∧ v.Canonical (a * b)
      ∧ ∀ w : Value, w.Canonical (a * b) → w = v)
    ∧ m.send natives ⟨x, "==", [y]⟩ = some (.ok (.bool (decide (a = b))), m)
    ∧ m.send natives ⟨x, "<", [y]⟩ = some (.ok (.bool (decide (a < b))), m)
    ∧ m.send natives ⟨x, ">", [y]⟩ = some (.ok (.bool (decide (a > b))), m) := by
  have hresult : ∀ op : Arithmetic, m.performPrimitive (.integer op) x [y]
      = (.ok (.ofInt (op.onInt a b)), m) := by
    intro op
    unfold performPrimitive
    dsimp only [List.headD_cons]
    rw [integerArithmetic_eq m op hx hy]
  have hcanonical : ∀ z : Int, (Value.ofInt z).Canonical z
      ∧ ∀ w : Value, w.Canonical z → w = .ofInt z :=
    fun z => ⟨Value.canonical_ofInt z, fun _ canonical => canonical.eq_ofInt⟩
  obtain ⟨hequal, hless, hgreater⟩ := accepts_compare a b
  refine ⟨⟨_, ?_, hcanonical _⟩, ⟨_, ?_, hcanonical _⟩, ⟨_, ?_, hcanonical _⟩, ?_, ?_, ?_⟩
  · exact send_integer inPlace hx (p := ⟨Core.integer, "+", .exactly 1, .integer .add⟩)
      (by simp [Core.primitives]) rfl rfl (hresult .add)
  · exact send_integer inPlace hx (p := ⟨Core.integer, "-", .exactly 1, .integer .sub⟩)
      (by simp [Core.primitives]) rfl rfl (hresult .sub)
  · exact send_integer inPlace hx (p := ⟨Core.integer, "*", .exactly 1, .integer .mul⟩)
      (by simp [Core.primitives]) rfl rfl (hresult .mul)
  · refine send_integer inPlace hx (p := ⟨Core.integer, "==", .exactly 1, .numberEqual⟩)
      (by simp [Core.primitives]) rfl rfl ?_
    unfold performPrimitive numbersEqual
    dsimp only [List.headD_cons]
    rw [Value.compareNumbers?_eq hx hy, ← hequal]
    rfl
  · refine send_integer inPlace hx (p := ⟨Core.integer, "<", .exactly 1, .numberOrder .less⟩)
      (by simp [Core.primitives]) rfl rfl ?_
    unfold performPrimitive
    dsimp only [List.headD_cons]
    rw [numericRelation_eq m .less hx hy, hless]
  · refine send_integer inPlace hx (p := ⟨Core.integer, ">", .exactly 1, .numberOrder .greater⟩)
      (by simp [Core.primitives]) rfl rfl ?_
    unfold performPrimitive
    dsimp only [List.headD_cons]
    rw [numericRelation_eq m .greater hx hy, hgreater]

/-- The largest fixnum and one, on a machine that has just started: the sum is
the first big integer. -/
theorem send_integer_exact_promotes :
    ∃ m, start .standard .empty ⟨.emptyDirectory, []⟩ = .ok m
      ∧ m.registry.PrimitivesInPlace Core.integer
      ∧ (∃ v, m.send .none ⟨.fixnum ⟨9223372036854775807, by decide, by decide⟩, "+",
          [.fixnum ⟨1, by decide, by decide⟩]⟩ = some (.ok v, m)
        ∧ v.Canonical (9223372036854775807 + 1)
        ∧ ∀ w : Value, w.Canonical (9223372036854775807 + 1) → w = v) := by
  have hbooted : (match start .standard .empty ⟨.emptyDirectory, []⟩ with
      | .ok m => decide (m.registry.PrimitivesInPlace Core.integer)
      | .error _ => false) = true := by
    decide +kernel
  cases hm : start .standard .empty ⟨.emptyDirectory, []⟩ with
  | error e =>
      rw [hm] at hbooted
      cases hbooted
  | ok m =>
      rw [hm, decide_eq_true_eq] at hbooted
      exact ⟨m, rfl, hbooted, (send_integer_exact hbooted (.fixnum _) (.fixnum _)).1⟩

end Machine

end ObjectModel
