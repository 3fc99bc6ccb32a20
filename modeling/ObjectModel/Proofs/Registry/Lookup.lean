/-
The epoch is a sound token for lookups.

A walk through the ancestors is bounded by the number of types, and a registry
that has grown gives its walks a larger bound. Neither bound is ever what ends
a walk: the depth of a module and the rank of a class are below the first. So
with the same links the walks are the same, and with the same tables they find
the same methods (`findMethod?_eq_of_keeps`). A walk only ever adds to what it
has seen, so a type's own methods come before all others (`findMethod?_own`).
-/
import Mathlib.Data.List.Basic
import ObjectModel.Proofs.Registry.Growth
import ObjectModel.Proofs.Registry.Lineage

namespace ObjectModel.Registry

variable {r r' : Registry}

-- ==================================================== the walks only add

theorem prefix_moduleWalk (r : Registry) : ∀ (fuel : Nat) (m : TypeId) (seen : List TypeId),
    seen <+: r.moduleWalk fuel m seen := by
  intro fuel
  induction fuel with
  | zero => intro m seen; exact List.prefix_rfl
  | succ fuel ih =>
      intro m seen
      unfold moduleWalk
      split
      · exact List.prefix_rfl
      · refine List.foldlRecOn (motive := (seen <+: ·)) _ _ (List.prefix_append _ _)
          fun walked before inner _ => ?_
        exact before.trans (ih inner walked)

theorem prefix_chainWalk (r : Registry) : ∀ (fuel : Nat) (t : Option TypeId)
    (seen : List TypeId), seen <+: r.chainWalk fuel t seen := by
  intro fuel
  induction fuel with
  | zero => intro t seen; exact List.prefix_rfl
  | succ fuel ih =>
      intro t seen
      cases t with
      | none => exact List.prefix_rfl
      | some t =>
          have hown : seen <+: if t ∈ seen then seen else seen ++ [t] := by
            split
            · exact List.prefix_rfl
            · exact List.prefix_append _ _
          refine List.IsPrefix.trans ?_ (ih _ _)
          refine List.foldlRecOn (motive := (seen <+: ·)) _ _ hown fun walked before m _ => ?_
          exact before.trans (prefix_moduleWalk r r.size m walked)

/-- The ancestors of a type start with the type. -/
theorem prefix_ancestors {t : TypeId} (has : r.Has t) : [t] <+: r.ancestors t := by
  obtain ⟨n, hn⟩ := Nat.exists_eq_succ_of_ne_zero (Nat.ne_of_gt (Nat.zero_lt_of_lt has))
  unfold ancestors
  rw [hn]
  refine List.IsPrefix.trans ?_ (prefix_chainWalk r n _ _)
  refine List.foldlRecOn (motive := ([t] <+: ·)) _ _ List.prefix_rfl fun walked before m _ => ?_
  exact before.trans (prefix_moduleWalk r r.size m walked)

/-- A type's own methods are found first. -/
theorem findMethod?_own {t : TypeId} {name : String} {method : Method}
    (own : (r.record t).methods.get? name = some method) : r.findMethod? t name = some method := by
  have has : r.Has t := by
    by_contra hno
    rw [record_of_not_has r hno] at own
    cases own
  obtain ⟨rest, hrest⟩ := prefix_ancestors has
  unfold findMethod?
  rw [← hrest, List.findSome?_append, List.findSome?_singleton, own]
  rfl

-- ====================================================== the walks stay inside

/-- All types of a list are there. -/
def AllHave (r : Registry) (seen : List TypeId) : Prop := ∀ a ∈ seen, r.Has a

namespace WellFormed

variable (wf : r.WellFormed)

include wf

/-- All ancestors of a type are there. -/
theorem ancestors_all_have {t : TypeId} (has : r.Has t) : r.AllHave (r.ancestors t) :=
  fun _ mem => wf.has_of_links has ((wf.mem_ancestors_iff_links has).mp mem)

-- =================================================== the walks and the bounds

/-- With the same mixins and enough fuel on both sides, a walk through modules
is the same. -/
theorem moduleWalk_eq
    (includes : ∀ {t}, r.Has t → (r'.record t).includes = (r.record t).includes) :
    ∀ (fuel fuel' : Nat) {m : TypeId} (seen : List TypeId), r.Has m → r.nesting m < fuel →
      r.nesting m < fuel' → r'.moduleWalk fuel' m seen = r.moduleWalk fuel m seen := by
  intro fuel
  induction fuel with
  | zero => intro fuel' m seen _ hlt; exact absurd hlt (Nat.not_lt_zero _)
  | succ fuel ih =>
      intro fuel' m seen has hlt hlt'
      obtain ⟨fuel', rfl⟩ := Nat.exists_eq_add_of_lt hlt'
      unfold moduleWalk
      split
      · rfl
      · rw [includes has]
        refine List.foldl_ext _ _ _ fun seen inner mem => ?_
        have hdepth := wf.nested.nesting_lt mem
        exact ih _ seen (wf.includes_module mem).1 (by omega) (by omega)

/-- With the same links and enough fuel on both sides, a walk through
superclasses is the same. -/
theorem chainWalk_eq (size_le : r.size ≤ r'.size)
    (includes : ∀ {t}, r.Has t → (r'.record t).includes = (r.record t).includes)
    (superclass : ∀ {t}, r.Has t → (r'.record t).superclass = (r.record t).superclass) :
    ∀ (fuel fuel' : Nat) {t : TypeId} (seen : List TypeId), r.Has t → chainRank t < fuel →
      chainRank t < fuel' → r'.chainWalk fuel' (some t) seen = r.chainWalk fuel (some t) seen := by
  intro fuel
  induction fuel with
  | zero => intro fuel' t seen _ hlt; exact absurd hlt (Nat.not_lt_zero _)
  | succ fuel ih =>
      intro fuel' t seen has hlt hlt'
      obtain ⟨fuel', rfl⟩ := Nat.exists_eq_add_of_lt hlt'
      have hmixed : ∀ seen, (r.record t).includes.foldl
            (fun seen m => r'.moduleWalk r'.size m seen) seen
          = (r.record t).includes.foldl (fun seen m => r.moduleWalk r.size m seen) seen := by
        intro seen
        refine List.foldl_ext _ _ _ fun seen m mem => ?_
        have hdepth := wf.nested.nesting_lt_size (t := m) wf.size_pos
        exact wf.moduleWalk_eq includes _ _ seen (wf.includes_module mem).1 hdepth
          (Nat.lt_of_lt_of_le hdepth size_le)
      unfold chainWalk
      rw [includes has, superclass has]
      dsimp only
      rw [hmixed]
      cases hs : (r.record t).superclass with
      | none => rw [chainWalk_none, chainWalk_none]
      | some u =>
          obtain ⟨-, hasu, hrank⟩ := wf.superclass_some hs
          exact ih _ _ hasu (by omega) (by omega)

/-- With the same tables, the ancestors of a type stay the same. -/
theorem ancestors_eq_of_keeps (keeps : Keeps r r') {t : TypeId} (has : r.Has t) :
    r'.ancestors t = r.ancestors t := by
  have hrank := chainRank_lt_size wf.four_le_size has
  exact wf.chainWalk_eq keeps.grows.size_le (fun h => (keeps.tables h).includes_eq)
    (fun h => (keeps.grows.identity h).superclass_eq) _ _ [] has hrank
    (Nat.lt_of_lt_of_le hrank keeps.grows.size_le)

omit wf in
/-- A search whose probes agree on the list finds the same. -/
theorem findSome?_eq_of_agree {α β : Type} {f g : α → Option β} : ∀ (l : List α),
    (∀ a ∈ l, f a = g a) → l.findSome? f = l.findSome? g := by
  intro l
  induction l with
  | nil => intro _; rfl
  | cons a rest ih =>
      intro agree
      rw [List.findSome?_cons, List.findSome?_cons, agree a List.mem_cons_self,
        ih fun a mem => agree a (List.mem_cons_of_mem _ mem)]

/-- With the same tables, a name finds the same method. -/
theorem findMethod?_eq_of_keeps (keeps : Keeps r r') {t : TypeId} (has : r.Has t)
    (name : String) : r'.findMethod? t name = r.findMethod? t name := by
  unfold findMethod?
  rw [wf.ancestors_eq_of_keeps keeps has]
  refine findSome?_eq_of_agree _ fun a mem => ?_
  rw [(keeps.tables (wf.ancestors_all_have has a mem)).methods_eq]

/-- While the epoch stands still, a name finds the same method. -/
theorem findMethod?_eq_of_epoch (grows : Grows r r') (epoch : r'.epoch = r.epoch) {t : TypeId}
    (has : r.Has t) (name : String) : r'.findMethod? t name = r.findMethod? t name :=
  wf.findMethod?_eq_of_keeps (.of_epoch grows epoch) has name

end WellFormed

end ObjectModel.Registry
