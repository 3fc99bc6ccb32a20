/-
Whatever a program does, its registry evolves.

A registry is `Equipped` if it is well-formed and the core types are in their
places. From there on every step of a send changes the registry by valid
operations or not at all: the primitives and the foreign protocol make strings
and nothing else, and native bodies promise as much of themselves. The promise
of one step is carried to a whole run by induction on its steps.
-/
import ObjectModel.Proofs.Registry.Growth
import ObjectModel.Send.Step

namespace ObjectModel

/-- A well-formed registry with the core types in their places. -/
structure Registry.Equipped (r : Registry) : Prop where
  wellFormed : r.WellFormed
  has_last_core : r.Has Core.interopException

namespace Registry.Equipped

variable {r r' : Registry}

theorem has_core (equipped : r.Equipped) {t : TypeId}
    (h : t.index ≤ Core.interopException.index) : r.Has t :=
  Nat.lt_of_le_of_lt h equipped.has_last_core

theorem of_evolves (equipped : r.Equipped) (evolves : r.Evolves r') : r'.Equipped where
  wellFormed := equipped.wellFormed.of_evolves evolves
  has_last_core := (evolves.grows equipped.wellFormed).has equipped.has_last_core

/-- A new string is a valid operation. -/
theorem evolves_newText (equipped : r.Equipped) (text : String) :
    r.Evolves (r.allocObject Core.string (.text text)).2 :=
  .single (.makeObject Core.string (some text)) (equipped.has_core (by decide))

end Registry.Equipped

namespace Machine

variable {natives : Natives} {m : Machine} (equipped : m.registry.Equipped)

include equipped

theorem evolves_newString (text : String) :
    m.registry.Evolves (m.newString text).2.registry :=
  equipped.evolves_newText text

/-- The singleton type of a value is there once it was asked for. -/
theorem evolves_singletonClass {v : Value} {t : TypeId} {m' : Machine}
    (holds : m.registry.HoldsValue v) (h : m.singletonClass v = .ok (t, m')) :
    m.registry.Evolves m'.registry ∧ m'.registry.Has t := by
  unfold singletonClass at h
  split at h
  · cases h
    exact ⟨.refl _, equipped.has_core (by decide)⟩
  · cases h
    exact ⟨.refl _, equipped.has_core (by decide)⟩
  · cases h
    exact ⟨.refl _, equipped.has_core (by decide)⟩
  · next o =>
    have hmade : m.registry.Evolves (m.registry.singletonOf o).2 :=
      .single (.makeSingleton o) (holds o rfl)
    have hhas := (Registry.WellFormed.singletonWithin (m.registry.size + 1)
      equipped.wellFormed (holds o rfl)).2
    cases h
    exact ⟨hmade, hhas⟩
  · cases h

theorem evolves_defineSingletonMethod {v : Value} {name : String} {arity : Arity} {body : Body}
    {m' : Machine} (holds : m.registry.HoldsValue v)
    (h : m.defineSingletonMethod v name arity body = .ok m') :
    m.registry.Evolves m'.registry := by
  unfold defineSingletonMethod at h
  split at h
  · cases h
  · next t m₁ hmade =>
    obtain ⟨hevolves, has⟩ := evolves_singletonClass equipped holds hmade
    cases h
    exact hevolves.trans (.single (.defineMethod t name arity body) has)

-- ============================================================== one step

theorem evolves_performPrimitive (p : Primitive) (receiver : Value) (args : List Value) :
    m.registry.Evolves (m.performPrimitive p receiver args).2.registry := by
  cases p with
  | concatenate =>
      unfold performPrimitive concatenate
      dsimp only
      split
      · exact .refl _
      · exact evolves_newString equipped _
  | newText text => exact evolves_newString equipped text
  | _ => exact .refl _

theorem evolves_performBody (b : Body) (receiver : Value) (args : List Value) :
    m.registry.Evolves (performBody natives m b receiver args).2.registry := by
  cases b with
  | primitive p => exact evolves_performPrimitive equipped p receiver args
  | native id =>
      unfold performBody
      dsimp only
      split
      · next h => exact (natives id).evolves h
      · exact .refl _
  | description => exact evolves_newString equipped _
  | forwardToFirst name =>
      unfold performBody
      dsimp only
      split
      · exact .refl _
      · exact .refl _
  | _ => exact .refl _

theorem evolves_invoke (method : Method) (receiver : Value) (args : List Value) :
    m.registry.Evolves (invoke natives m method receiver args).2.registry := by
  unfold invoke
  split
  · exact evolves_performBody equipped _ _ _
  · exact .refl _

omit equipped in
/-- Foreign objects change no registry. -/
@[simp] theorem registry_deliver (m : Machine) (f : ForeignId) (message : Message) :
    (m.deliver f message).2.registry = m.registry := rfl

omit equipped in
@[simp] theorem registry_translate {α : Type} (answered : Except InteropError α × Machine) :
    (translate answered).2.registry = answered.2.registry := by
  obtain ⟨_ | _, m⟩ := answered <;> rfl

omit equipped in
@[simp] theorem registry_finishWith (answered : Except InteropError Value × Machine) :
    (finishWith answered).2.registry = answered.2.registry :=
  registry_translate answered

omit equipped in
@[simp] theorem registry_primitiveKind (m : Machine) (f : ForeignId) :
    (m.primitiveKind f).2.registry = m.registry := by
  unfold primitiveKind
  dsimp only
  split_ifs <;> simp only [registry_deliver]

/-- What unboxing comes to once the object was asked: a refusal, or a value that may
be a new string. -/
inductive Unboxing (m : Machine) : Outcome → Machine → Prop
  | refused (e : Raise) : Unboxing m (.error e) m
  | bool (b : Bool) : Unboxing m (.ok (.bool b)) m
  | fixnum (n : Fixnum) : Unboxing m (.ok (.fixnum n)) m
  | float (x : Double) : Unboxing m (.ok (.float x)) m
  | text (text : String) : Unboxing m (.ok (m.newString text).1) (m.newString text).2

omit equipped in
theorem unboxing_of_unbox {kind : PrimitiveKind} {f : ForeignId} {outcome : Outcome}
    {m' : Machine} (h : m.unbox kind f = some (outcome, m')) :
    ∃ message, Unboxing (m.deliver f message).2 outcome m' := by
  have hconvert : ∀ {α : Type} {make : Machine → α → Value × Machine}
      {answered : Except InteropError α × Machine},
      (∀ m a, Unboxing m (.ok (make m a).1) (make m a).2) →
      some (convert make (translate answered)) = some (outcome, m') →
      Unboxing answered.2 outcome m' := by
    intro α make answered makes h
    obtain ⟨e | a, m₁⟩ := answered
    · cases h
      exact .refused _
    · cases h
      exact makes m₁ a
  unfold unbox at h
  cases kind with
  | boolean => exact ⟨.asBoolean, hconvert (fun _ => .bool) h⟩
  | string => exact ⟨.asString, hconvert (fun _ => .text) h⟩
  | int => exact ⟨.asInt, hconvert (fun _ => .fixnum) h⟩
  | long => exact ⟨.asLong, hconvert (fun _ => .fixnum) h⟩
  | double => exact ⟨.asDouble, hconvert (fun _ => .float) h⟩
  | other => cases h

theorem evolves_unbox {kind : PrimitiveKind} {f : ForeignId} {outcome : Outcome} {m' : Machine}
    (h : m.unbox kind f = some (outcome, m')) : m.registry.Evolves m'.registry := by
  obtain ⟨message, unboxing⟩ := unboxing_of_unbox h
  have hasked : (m.deliver f message).2.registry = m.registry := registry_deliver m f message
  rw [← hasked] at equipped ⊢
  cases unboxing with
  | refused | bool | fixnum | float => exact .refl _
  | text text => exact evolves_newString equipped text

theorem evolves_performOperator (kind : PrimitiveKind) (f : ForeignId) (name : String)
    (args : List Value) : m.registry.Evolves (m.performOperator kind f name args).2.registry := by
  unfold performOperator
  split
  · next h => exact evolves_unbox equipped h
  · next h => exact evolves_unbox equipped h
  · rw [registry_finishWith, registry_deliver]
    exact .refl _

theorem evolves_performOutgoing (call : OutgoingCall) (f : ForeignId) (name : String)
    (args : List Value) : m.registry.Evolves (m.performOutgoing call f name args).2.registry := by
  have hfinish : ∀ {answered : Except InteropError Value × Machine},
      answered.2.registry = m.registry → m.registry.Evolves (finishWith answered).2.registry := by
    intro answered hanswered
    rw [registry_finishWith, hanswered]
    exact .refl _
  unfold performOutgoing
  cases call with
  | operator =>
      have hasked := registry_primitiveKind m f
      rw [← hasked] at equipped ⊢
      exact evolves_performOperator equipped _ f name args
  | readArrayElement => exact hfinish (registry_deliver m f _)
  | execute => exact hfinish (registry_deliver m f _)
  | instantiate => exact hfinish (registry_deliver m f _)
  | invokeMember => exact hfinish (registry_deliver m f _)
  | readMember =>
      dsimp only
      split
      · exact .refl _
      · exact hfinish (registry_deliver m f _)
  | send =>
      dsimp only
      split
      · exact .refl _
      · exact .refl _
  | readOrInvoke =>
      dsimp only
      split
      · exact hfinish rfl
      · exact hfinish rfl
  | writeMember =>
      have hregistry := registry_translate
        (m.deliver f (.writeMember (OutgoingCall.assignedMember name) (args.headD .nil)))
      dsimp only
      split
      · next h =>
        rw [h, registry_deliver] at hregistry
        rw [← hregistry]
        exact .refl _
      · next h =>
        rw [h, registry_deliver] at hregistry
        rw [← hregistry]
        exact .refl _
  | writeMemberArity => exact .refl _

theorem evolves_answerWith (method? : Option Method) (s : Send) :
    m.registry.Evolves (answerWith natives m method? s).2.registry := by
  unfold answerWith
  split
  · exact evolves_invoke equipped _ _ _
  · exact evolves_performOutgoing equipped _ _ _ _
  · exact .refl _

-- ================================================================ whole runs

omit equipped in
/-- A run leaves a registry that the first one evolves to. The induction is on
the steps that the run may make. -/
theorem evolves_run : ∀ (fuel : Nat) {m : Machine} {s : Send} {outcome : Outcome}
    {m' : Machine}, m.registry.Equipped → run natives m fuel s = some (outcome, m') →
      m.registry.Evolves m'.registry := by
  intro fuel
  induction fuel with
  | zero => intro m s outcome m' _ h; cases h
  | succ fuel ih =>
      intro m s outcome m' equipped h
      have hstep : m.registry.Evolves (step natives m s).2.registry :=
        evolves_answerWith equipped _ s
      unfold run at h
      split at h
      · next hs =>
        rw [hs] at hstep
        cases h
        exact hstep
      · next hs =>
        rw [hs] at hstep
        exact hstep.trans (ih (equipped.of_evolves hstep) h)
      · cases h

/-- What was begun with one step ends in a registry that evolved. -/
theorem evolves_settle {fuel : Nat} {p : Progress × Machine} {outcome : Outcome}
    {m' : Machine} (begun : m.registry.Evolves p.2.registry)
    (h : settle natives fuel p = some (outcome, m')) : m.registry.Evolves m'.registry := by
  unfold settle at h
  split at h
  · cases h
    exact begun
  · exact begun.trans (evolves_run fuel (equipped.of_evolves begun) h)
  · cases h

end Machine

end ObjectModel
