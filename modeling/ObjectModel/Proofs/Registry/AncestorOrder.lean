/-
What is on a list of ancestors, and in what order.

A list of ancestors starts with its type and holds each type that links lead to
once. Links close no circle, so to be an ancestor is a partial order.

The list of a class is in two parts. First comes the layer of the class: the
class, then whatever is mixed into it, directly or through other modules. Then
comes the list of the superclass, without what the layer has already
(`ancestors_of_superclass`). What was passed over there was asked before, so a
name finds the first method in the layer, or else what it finds from the
superclass (`findMethod?_of_superclass`).
-/
import Mathlib.Order.Defs.Unbundled
import ObjectModel.Proofs.Registry.Lookup

namespace ObjectModel.Registry

variable {r : Registry}

-- ==================================================================== layers

/-- A type and what is mixed into it, in the order in which they are asked. -/
def layer (r : Registry) (t : TypeId) : List TypeId := r.moduleWalk r.size t []

/-- The first method of a name in some types. -/
def firstMethod? (r : Registry) (types : List TypeId) (name : String) : Option Method :=
  types.findSome? fun a => (r.record a).methods.get? name

/-- What the lists of ancestors of a registry are like. -/
structure SoundAncestors (r : Registry) : Prop where
  head : ∀ {t : TypeId}, r.Has t → (r.ancestors t).head? = some t
  nodup : ∀ {t : TypeId}, r.Has t → (r.ancestors t).Nodup
  mem_iff : ∀ {t a : TypeId}, r.Has t →
    (a ∈ r.ancestors t ↔ Relation.ReflTransGen r.Link t a)
  order : IsPartialOrder {t // r.Has t} fun t a => r.isAncestor t a
  layer_head : ∀ c : TypeId, (r.layer c).head? = some c
  layer_nodup : ∀ c : TypeId, (r.layer c).Nodup
  /-- A layer is a type and what is mixed into it. -/
  mem_layer : ∀ {c a : TypeId}, a ∈ r.layer c ↔ a = c ∨ r.Inside c a
  /-- The superclass's list follows the layer. -/
  ancestors_eq : ∀ {c p : TypeId}, (r.record c).superclass = some p →
    r.ancestors c = r.layer c ++ (r.ancestors p).filter (· ∉ r.layer c)
  /-- What the layer does not define is inherited. -/
  findMethod?_eq : ∀ {c p : TypeId}, (r.record c).superclass = some p → ∀ name : String,
    r.findMethod? c name = (r.firstMethod? (r.layer c) name).or (r.findMethod? p name)

/-- A search that leaves out what was searched before finds nothing else. -/
theorem or_findSome?_filter {α β : Type} [DecidableEq α] (f : α → Option β) (l l' : List α) :
    (l.findSome? f).or ((l'.filter (· ∉ l)).findSome? f)
      = (l.findSome? f).or (l'.findSome? f) := by
  cases hfound : l.findSome? f with
  | some b => rfl
  | none =>
      have hnone := List.findSome?_eq_none_iff.mp hfound
      have hsame : (l'.filter (· ∉ l)).findSome? f = l'.findSome? f := by
        induction l' with
        | nil => rfl
        | cons a rest ih =>
            by_cases ha : a ∈ l
            · rw [List.filter_cons_of_neg (by simpa using ha), ih, List.findSome?_cons,
                hnone a ha]
            · rw [List.filter_cons_of_pos (by simpa using ha), List.findSome?_cons,
                List.findSome?_cons, ih]
      rw [hsame]

theorem head?_ancestors {t : TypeId} (has : r.Has t) : (r.ancestors t).head? = some t := by
  obtain ⟨rest, hrest⟩ := prefix_ancestors has
  rw [← hrest]
  rfl

namespace WellFormed

variable (wf : r.WellFormed)

include wf

theorem layer_eq {t : TypeId} {line : List TypeId} (unfolds : r.Unfolds [t] line) :
    r.layer t = line.eraseDups := by
  have hnothing : r.Saturated [t] [] := fun _ _ _ mem => absurd mem List.not_mem_nil
  exact unfolds.foldl_moduleWalk wf (fun _ _ => wf.nested.nesting_lt_size wf.size_pos)
    List.nodup_nil hnothing

theorem mem_layer {t a : TypeId} : a ∈ r.layer t ↔ r.Reaches t a := by
  obtain ⟨line, unfolds⟩ := wf.exists_unfolds [t]
  rw [wf.layer_eq unfolds, List.mem_eraseDups, unfolds.mem_iff]
  simp

theorem nodup_layer (t : TypeId) : (r.layer t).Nodup := by
  obtain ⟨line, unfolds⟩ := wf.exists_unfolds [t]
  rw [wf.layer_eq unfolds]
  exact nodup_eraseDups line

theorem head?_layer (t : TypeId) : (r.layer t).head? = some t := by
  obtain ⟨line, unfolds⟩ := wf.exists_unfolds [t]
  rw [wf.layer_eq unfolds]
  cases unfolds
  rw [List.cons_append, List.eraseDups_cons]
  rfl

/-- A class comes with what is mixed into it, then with what is new to it in the
list of its superclass. -/
theorem ancestors_of_superclass {c p : TypeId} (super : (r.record c).superclass = some p) :
    r.ancestors c = r.layer c ++ (r.ancestors p).filter (· ∉ r.layer c) := by
  obtain ⟨line, lineage⟩ := wf.exists_lineage c
  rw [lineage.ancestors_eq wf (has_of_superclass super)]
  cases lineage with
  | @cons _ inner above hinner habove =>
      rw [super] at habove
      have hlayer := wf.layer_eq (.cons hinner .nil)
      rw [List.append_nil] at hlayer
      have hmem : ∀ a, a ∈ r.layer c ↔ a ∈ c :: inner := fun a => by
        rw [hlayer, List.mem_eraseDups]
      rw [eraseDups_append_eq, habove.ancestors_eq wf (wf.superclass_some super).2.1, ← hlayer]
      simp only [hmem]

/-- A name finds the first method in the layer, or else what the superclass
finds. -/
theorem findMethod?_of_superclass {c p : TypeId} (super : (r.record c).superclass = some p)
    (name : String) :
    r.findMethod? c name = (r.firstMethod? (r.layer c) name).or (r.findMethod? p name) := by
  unfold findMethod? firstMethod?
  rw [wf.ancestors_of_superclass super, List.findSome?_append]
  exact or_findSome?_filter _ _ _

/-- To be an ancestor is a partial order: links lead on, and close no circle. -/
theorem isPartialOrder_isAncestor :
    IsPartialOrder {t // r.Has t} fun t a => r.isAncestor t a := by
  have hlinks : ∀ t a : {t // r.Has t},
      r.isAncestor t a = true ↔ Relation.ReflTransGen r.Link t.1 a.1 := by
    intro t a
    unfold isAncestor
    rw [decide_eq_true_eq]
    exact wf.mem_ancestors_iff_links t.2
  refine { refl := ?_, trans := ?_, antisymm := ?_ }
  · exact fun t => (hlinks t t).mpr .refl
  · exact fun t a b hta hab => (hlinks t b).mpr (((hlinks t a).mp hta).trans ((hlinks a b).mp hab))
  · intro t a hta hat
    rcases Relation.reflTransGen_iff_eq_or_transGen.mp ((hlinks t a).mp hta) with heq | way
    · exact Subtype.ext heq.symm
    · exact absurd rfl (wf.acyclic_link (way.trans_left ((hlinks a t).mp hat)))

end WellFormed

-- ================================================================= the result

/-- The lists of ancestors of every reachable registry are sound. -/
theorem soundAncestors_of_reachable (reachable : r.Reachable) : r.SoundAncestors := by
  have wf := reachable.wellFormed
  exact
    { head := head?_ancestors
      nodup := wf.nodup_ancestors
      mem_iff := fun has => wf.mem_ancestors_iff_links has
      order := wf.isPartialOrder_isAncestor
      layer_head := wf.head?_layer
      layer_nodup := wf.nodup_layer
      mem_layer := by
        intro c a
        rw [wf.mem_layer, Reaches, Relation.reflTransGen_iff_eq_or_transGen]
      ancestors_eq := wf.ancestors_of_superclass
      findMethod?_eq := wf.findMethod?_of_superclass }

/-- A bird moves; a duck, which is a bird, swims, and swimming is a way to move. -/
def waterfowl : List Operation :=
  [.defineModule Core.object "Moving", .defineModule Core.object "Swimming",
    .defineClass Core.object (some Core.object) "Bird" none,
    .defineClass Core.object (some ⟨6⟩) "Duck" none,
    .mixIn ⟨5⟩ ⟨4⟩, .mixIn ⟨6⟩ ⟨4⟩, .mixIn ⟨7⟩ ⟨5⟩,
    .defineMethod ⟨4⟩ "move" (.exactly 0) (.answer .nil),
    .defineMethod ⟨6⟩ "move" (.exactly 0) (.answer .nil)]

theorem reachable_waterfowl : Reachable (initial.run waterfowl) := evolves_run (by decide +kernel)

/-- The module that the class shares with its superclass is asked once, before
the superclass. -/
theorem soundAncestors_of_waterfowl :
    let r := initial.run waterfowl
    r.Reachable ∧ r.layer ⟨7⟩ = [⟨7⟩, ⟨5⟩, ⟨4⟩]
      ∧ r.ancestors ⟨6⟩ = [⟨6⟩, ⟨4⟩, Core.object, Core.basicObject]
      ∧ r.ancestors ⟨7⟩ = [⟨7⟩, ⟨5⟩, ⟨4⟩, ⟨6⟩, Core.object, Core.basicObject]
      ∧ r.SoundAncestors :=
  ⟨reachable_waterfowl, by decide +kernel, by decide +kernel, by decide +kernel,
    soundAncestors_of_reachable reachable_waterfowl⟩

end ObjectModel.Registry
