/-
The registry after a class was made, record by record.

A definition of a class that is not refused and does not reopen one makes a
type at the end, gives it a name and binds it in its lexical parent; a constant
that is bound to what needs no name changes one table. Each is said here as the
records that it leaves, so that whoever makes several in a row reads them off.
-/
import ObjectModel.Proofs.Registry.Naming

namespace ObjectModel.Registry

variable {r r' : Registry} {name : String}

-- ================================================================= constants

/-- A bound constant is an entry in the owner's table. -/
theorem record_bind_self {owner : TypeId} (has : r.Has owner) (name : String) (v : Value) :
    (r.bind owner name v).record owner
      = { r.record owner with constants := (r.record owner).constants.set name v } := by
  unfold bind
  rw [record_modifyType, if_pos ⟨rfl, has⟩]

theorem record_bind_of_ne {owner u : TypeId} (ne : u ≠ owner) (name : String) (v : Value) :
    (r.bind owner name v).record u = r.record u := by
  unfold bind
  rw [record_modifyType, if_neg fun h => ne h.1]

/-- What needs no name is bound and nothing else. -/
theorem setConstant_eq_bind {owner : TypeId} {v : Value}
    (named : ∀ t, r.typeOf? v = some t → (r.record t).name ≠ none) :
    r.setConstant owner name v = r.bind owner name v := by
  unfold setConstant
  split
  · next t ht =>
    rw [if_neg fun h => named t ht (Option.isNone_iff_eq_none.mp (Bool.and_eq_true _ _ ▸ h).1)]
  · rfl

-- =================================================================== classes

/-- A class was made below a superclass, as a constant of its parent. -/
structure ClassMade (r r' : Registry) (parent superclass : TypeId) (name : String)
    (shape : Shape) : Prop where
  size_eq : r'.size = r.size + 1
  record_new : r'.record ⟨r.size⟩ =
    { kind := .classType
      name := some (r.qualify parent name)
      lexicalParent := some parent
      superclass := some superclass
      includes := []
      constants := .empty
      methods := .empty
      shape
      object := ⟨r.heap.length⟩
      attached := none }
  record_parent : r'.record parent = { r.record parent with
    constants := (r.record parent).constants.set name (.object ⟨r.heap.length⟩) }
  record_other : ∀ {u : TypeId}, u ≠ parent → u ≠ ⟨r.size⟩ → r'.record u = r.record u

/-- A class whose name is free is made. -/
theorem exists_classMade {parent superclass : TypeId} {shape : Option Shape}
    (has : r.Has parent) (class_ : (r.record superclass).kind = .classType)
    (free : r.constant? parent name = none) :
    ∃ r', r.defineClassUnder parent (some superclass) name shape = (.ok ⟨r.size⟩, r')
      ∧ ClassMade r r' parent superclass name (shape.getD (r.record superclass).shape) := by
  generalize hshape : shape.getD (r.record superclass).shape = made
  have hdefine : r.defineClassUnder parent (some superclass) name shape
      = (.ok ⟨r.size⟩, (r.allocType .classType Core.classType (some superclass) made).2.adopt
          ⟨r.size⟩ parent name) := by
    unfold defineClassUnder
    rw [free]
    dsimp only
    unfold defineAnonymousClass
    rw [if_pos class_, hshape]
    rfl
  refine ⟨_, hdefine, ?_⟩
  have hnew := record_allocType_new r .classType Core.classType (some superclass) made
  have hold : ∀ {u : TypeId}, u ≠ ⟨r.size⟩ →
      (r.allocType .classType Core.classType (some superclass) made).2.record u = r.record u :=
    fun ne => record_allocType_of_ne r ne
  have hsize := size_allocType r .classType Core.classType (some superclass) made
  have hqualify : (r.allocType .classType Core.classType (some superclass) made).2.qualify parent
      name = r.qualify parent name := by
    unfold qualify
    rw [hold (ne_of_has r has)]
  generalize (r.allocType .classType Core.classType (some superclass) made).2 = r₁ at *
  have hhas : r₁.Has ⟨r.size⟩ := by
    unfold Has
    rw [hsize]
    exact Nat.lt_succ_self _
  have hparent : r₁.Has parent := Nat.lt_trans has hhas
  have hne : parent ≠ ⟨r.size⟩ := ne_of_has r has
  have hvalue : r₁.typeValue ⟨r.size⟩ = .object ⟨r.heap.length⟩ := by
    unfold typeValue
    rw [hnew]
  have hnamed : (r₁.giveName ⟨r.size⟩ parent (r.qualify parent name)).Has parent :=
    has_giveName.mpr hparent
  rw [adopt_eq, hqualify, hvalue]
  refine ⟨?_, ?_, ?_, ?_⟩
  · unfold bind giveName
    rw [size_modifyType, size_modifyType, hsize]
  · rw [record_bind_of_ne hne.symm, record_giveName_self hhas (by rw [hnew]), hnew]
  · rw [record_bind_self hnamed, record_giveName_of_ne hne, hold hne]
  · intro u neParent neNew
    rw [record_bind_of_ne neParent, record_giveName_of_ne neNew, hold neNew]

end ObjectModel.Registry
