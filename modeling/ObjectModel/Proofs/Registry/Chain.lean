/-
Superclass chains as lists.

The rank of `WellFormed` drops along a chain, so the chain of every type can be
written down as a list that ends at a type without a superclass. A chain is read
from its lower end, one link at a time (`Ascends.uncons`), and the walk that looks
for its end never meets its bound: the rank of every type is smaller than the
number of types.
-/
import Mathlib.Data.List.Chain
import ObjectModel.Proofs.Registry.TypeGraph

namespace ObjectModel.Registry

/-- The chain of superclasses of a type: it starts with the type, each is the
superclass of the one before, and the last has none. -/
structure Ascends (r : Registry) (t : TypeId) (chain : List TypeId) : Prop where
  head : chain.head? = some t
  linked : chain.IsChain fun a b => (r.record a).superclass = some b
  has : ∀ a ∈ chain, r.Has a
  last : ∀ {e : TypeId}, chain.getLast? = some e → (r.record e).superclass = none

variable {r : Registry}

namespace Ascends

variable {t u : TypeId} {chain : List TypeId}

theorem single (has : r.Has t) (top : (r.record t).superclass = none) : r.Ascends t [t] where
  head := rfl
  linked := .singleton _
  has a mem := by
    rw [List.mem_singleton] at mem
    rw [mem]
    exact has
  last h := by
    cases h
    exact top

/-- A chain goes on downwards. -/
theorem cons (ascends : r.Ascends u chain) (has : r.Has t)
    (super : (r.record t).superclass = some u) : r.Ascends t (t :: chain) where
  head := rfl
  linked := by
    refine ascends.linked.cons fun v hv => ?_
    rw [ascends.head, Option.mem_some_iff] at hv
    subst hv
    exact super
  has a mem := by
    rcases List.mem_cons.mp mem with rfl | mem
    · exact has
    · exact ascends.has a mem
  last {e} h := by
    obtain ⟨rest, rfl⟩ := List.head?_eq_some_iff.mp ascends.head
    rw [List.getLast?_cons_cons] at h
    exact ascends.last h

/-- A type is at the top, or its chain goes on with its superclass's. -/
theorem uncons (ascends : r.Ascends t chain) :
    (chain = [t] ∧ (r.record t).superclass = none)
      ∨ ∃ u rest, chain = t :: rest ∧ (r.record t).superclass = some u ∧ r.Ascends u rest := by
  obtain ⟨head, linked, has, last⟩ := ascends
  match chain, head with
  | [_], rfl => exact .inl ⟨rfl, last rfl⟩
  | _ :: u :: rest, rfl =>
      rw [List.isChain_cons_cons] at linked
      refine .inr ⟨u, u :: rest, rfl, linked.1, rfl, linked.2, ?_, ?_⟩
      · exact fun a mem => has a (List.mem_cons_of_mem _ mem)
      · intro e h
        exact last (by rw [List.getLast?_cons_cons]; exact h)

end Ascends

namespace WellFormed

variable (wf : r.WellFormed)

include wf

/-- Every type has a chain: the rank drops at every step. -/
theorem exists_ascends {t : TypeId} (has : r.Has t) : ∃ chain, r.Ascends t chain := by
  cases hs : (r.record t).superclass with
  | none => exact ⟨_, .single has hs⟩
  | some u =>
      obtain ⟨-, hasu, hlt⟩ := wf.superclass_some hs
      obtain ⟨chain, ascends⟩ := exists_ascends hasu
      exact ⟨_, ascends.cons has hs⟩
termination_by chainRank t

/-- The walk along a chain finds its end, once the fuel covers the rank. -/
theorem chainEnd?_eq : ∀ (fuel : Nat) {t : TypeId} {chain : List TypeId}, r.Ascends t chain →
    chainRank t ≤ fuel → r.chainEnd? fuel t (r.record t).superclass = chain.getLast? := by
  intro fuel
  induction fuel with
  | zero =>
      intro t chain ascends le
      rcases ascends.uncons with ⟨rfl, top⟩ | ⟨u, rest, rfl, super, above⟩
      · rw [top]
        rfl
      · obtain ⟨-, -, hlt⟩ := wf.superclass_some super
        omega
  | succ fuel ih =>
      intro t chain ascends le
      rcases ascends.uncons with ⟨rfl, top⟩ | ⟨u, rest, rfl, super, above⟩
      · rw [top]
        rfl
      · obtain ⟨-, -, hlt⟩ := wf.superclass_some super
        obtain ⟨rest, rfl⟩ := List.head?_eq_some_iff.mp above.head
        rw [super, chainEnd?, ih above (by omega), List.getLast?_cons_cons]

end WellFormed

end ObjectModel.Registry
