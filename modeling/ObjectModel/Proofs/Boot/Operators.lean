/-
What the core types answer to operators.

Read off the tables that the primitives leave, and true in every registry that
has kept them: of the methods that foreign objects have, two are operators; and
what the classes of booleans, numbers and strings have are primitives.
-/
import ObjectModel.Proofs.Bindings
import ObjectModel.Proofs.Boot.Tables
import ObjectModel.Proofs.Registry.Lookup
import ObjectModel.Send.Outgoing

namespace ObjectModel

open Registry

-- =================================================================== the tables

/-- A body that the core types come with. -/
def Body.isPrimitive : Body → Bool
  | .primitive _ => true
  | _ => false

/-- The classes of what foreign objects unbox to. -/
def unboxedTypes : List TypeId :=
  [Core.trueClass, Core.falseClass, Core.integer, Core.float, Core.string]

/-- What the core types answer to operators. -/
structure OperatorTables (r : Registry) : Prop where
  foreign_operators : ∀ a ∈ r.ancestors Core.foreign, ∀ e ∈ (r.record a).methods.entries,
    OutgoingCall.isOperator e.1 = true → e.1 = "!" ∨ e.1 = "=="
  negation : ∀ t ∈ Core.foreign :: unboxedTypes,
    r.findMethod? t "!" = some ⟨"!", Core.basicObject, .exactly 0, .primitive .negation⟩
  foreign_equal : r.findMethod? Core.foreign "=="
    = some ⟨"==", Core.basicObject, .exactly 1, .primitive .identity⟩
  equal_arity : ∀ t ∈ unboxedTypes, (r.findMethod? t "==").map Method.arity = some (.exactly 1)
  primitives : ∀ t ∈ unboxedTypes, ∀ a ∈ r.ancestors t, ∀ e ∈ (r.record a).methods.entries,
    e.2.body.isPrimitive = true

instance (r : Registry) : Decidable (OperatorTables r) :=
  decidable_of_iff
    ((∀ a ∈ r.ancestors Core.foreign, ∀ e ∈ (r.record a).methods.entries,
        OutgoingCall.isOperator e.1 = true → e.1 = "!" ∨ e.1 = "==")
      ∧ (∀ t ∈ Core.foreign :: unboxedTypes, r.findMethod? t "!"
          = some ⟨"!", Core.basicObject, .exactly 0, .primitive .negation⟩)
      ∧ (r.findMethod? Core.foreign "=="
          = some ⟨"==", Core.basicObject, .exactly 1, .primitive .identity⟩)
      ∧ (∀ t ∈ unboxedTypes, (r.findMethod? t "==").map Method.arity = some (.exactly 1))
      ∧ ∀ t ∈ unboxedTypes, ∀ a ∈ r.ancestors t, ∀ e ∈ (r.record a).methods.entries,
          e.2.body.isPrimitive = true)
    ⟨fun ⟨h₁, h₂, h₃, h₄, h₅⟩ => ⟨h₁, h₂, h₃, h₄, h₅⟩,
      fun ⟨h₁, h₂, h₃, h₄, h₅⟩ => ⟨h₁, h₂, h₃, h₄, h₅⟩⟩

theorem Core.operatorTables_core {core : Registry} (h : Core.registry = .ok core) :
    OperatorTables (Core.installPrimitives core) := by
  have hmade : (Core.registry.toOption.all fun core =>
      decide (OperatorTables (Core.installPrimitives core))) = true := by
    decide +kernel
  rw [h] at hmade
  dsimp only [Except.toOption, Option.all] at hmade
  exact of_decide_eq_true hmade

/-- The tables of the core types are as the primitives left them. -/
def Registry.Outfitted (r : Registry) : Prop :=
  ∃ core, Core.registry = .ok core ∧ Keeps (Core.installPrimitives core) r

namespace Registry.Outfitted

variable {r r' : Registry} (outfitted : r.Outfitted)

include outfitted

theorem of_keeps (keeps : Keeps r r') : r'.Outfitted := by
  obtain ⟨core, hcore, hkeeps⟩ := outfitted
  exact ⟨core, hcore, hkeeps.trans keeps⟩

/-- The types that matter to operators find what the primitives left. -/
theorem exists_tables : ∃ base, OperatorTables base
    ∧ ∀ t ∈ Core.foreign :: unboxedTypes, ∀ name,
        r.findMethod? t name = base.findMethod? t name := by
  obtain ⟨core, hcore, keeps⟩ := outfitted
  have hlaunched := Core.launched_installPrimitives (Core.launched_registry hcore)
  refine ⟨_, Core.operatorTables_core hcore, fun t mem name => ?_⟩
  have hcoreTypes : ∀ t ∈ Core.foreign :: unboxedTypes,
      t.index ≤ Core.interopException.index := by decide
  exact hlaunched.equipped.wellFormed.findMethod?_eq_of_keeps keeps
    (hlaunched.equipped.has_core (hcoreTypes t mem)) name

/-- All operators but two are unknown to foreign objects. -/
theorem foreign_lacks {name : String} (operator : OutgoingCall.isOperator name = true)
    (notNegation : name ≠ "!") (notEqual : name ≠ "==") :
    r.findMethod? Core.foreign name = none := by
  obtain ⟨base, tables, hsame⟩ := outfitted.exists_tables
  rw [hsame _ List.mem_cons_self]
  unfold findMethod?
  rw [List.findSome?_eq_none_iff]
  intro a mem
  cases hget : (base.record a).methods.get? name with
  | none => rfl
  | some method =>
      rcases tables.foreign_operators a mem _ (Bindings.mem_of_get? hget) operator with h | h
      · exact absurd h notNegation
      · exact absurd h notEqual

theorem negation {t : TypeId} (mem : t ∈ Core.foreign :: unboxedTypes) :
    r.findMethod? t "!" = some ⟨"!", Core.basicObject, .exactly 0, .primitive .negation⟩ := by
  obtain ⟨base, tables, hsame⟩ := outfitted.exists_tables
  rw [hsame t mem]
  exact tables.negation t mem

theorem foreign_equal : r.findMethod? Core.foreign "=="
    = some ⟨"==", Core.basicObject, .exactly 1, .primitive .identity⟩ := by
  obtain ⟨base, tables, hsame⟩ := outfitted.exists_tables
  rw [hsame _ List.mem_cons_self]
  exact tables.foreign_equal

theorem exists_equal {t : TypeId} (mem : t ∈ unboxedTypes) :
    ∃ method, r.findMethod? t "==" = some method ∧ method.arity = .exactly 1 := by
  obtain ⟨base, tables, hsame⟩ := outfitted.exists_tables
  rw [hsame t (List.mem_cons_of_mem _ mem)]
  exact Option.map_eq_some_iff.mp (tables.equal_arity t mem)

/-- What a primitive value finds is a primitive. -/
theorem isPrimitive_of_find {t : TypeId} (mem : t ∈ unboxedTypes) {name : String}
    {method : Method} (found : r.findMethod? t name = some method) :
    method.body.isPrimitive = true := by
  obtain ⟨base, tables, hsame⟩ := outfitted.exists_tables
  rw [hsame t (List.mem_cons_of_mem _ mem)] at found
  obtain ⟨a, hmem, hget⟩ := List.exists_of_findSome?_eq_some found
  exact tables.primitives t mem a hmem _ (Bindings.mem_of_get? hget)

end Registry.Outfitted

end ObjectModel
