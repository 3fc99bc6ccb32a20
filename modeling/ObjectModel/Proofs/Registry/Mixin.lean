/-
What mixing in a module does to lists of ancestors.

A mixin puts one module in front of those of one type, the target, and changes
no other link. A type that does not have the target among its ancestors never
looks at what the target mixes in, so its list stays as it was. From any other
type one may now also go on from the module (`Relinked.mem_ancestors_iff`). For
the target itself the whole list is known: the module's ancestors come right
after the target, and what is left of the old list keeps its order
(`Relinked.ancestors_target`).

The last is more than it seems, as the module may have been mixed in before, and
what lies below it may be reached on other ways. In the lineages it is plain: to
leave out everything below the module makes the old and the new ones equal
(`Unfolds.without`).
-/
import ObjectModel.Proofs.Registry.AncestorOrder

namespace ObjectModel.Registry

variable {r r' : Registry} {target m : TypeId}

/-- A module was put in front of what a type mixes in; nothing else about links
is new. -/
structure Relinked (r r' : Registry) (target m : TypeId) : Prop where
  includes_target :
    (r'.record target).includes = m :: (r.record target).includes.filter (· ≠ m)
  includes_other : ∀ {t : TypeId}, t ≠ target → (r'.record t).includes = (r.record t).includes
  superclass_eq : ∀ t : TypeId, (r'.record t).superclass = (r.record t).superclass

/-- What a mixin does to lists of ancestors, and what it does again. -/
structure MixedIn (r r' : Registry) (target m : TypeId) : Prop where
  /-- The module's ancestors follow the target, then what is left of its list. -/
  target_eq : ∃ rest, r.ancestors target = target :: rest
    ∧ r'.ancestors target
        = target :: (r.ancestors m ++ rest.filter (· ∉ r.ancestors m))
  other_eq : ∀ {t : TypeId}, r.Has t → target ∉ r.ancestors t →
    r'.ancestors t = r.ancestors t
  mem_iff : ∀ {t a : TypeId}, r.Has t → target ∈ r.ancestors t →
    (a ∈ r'.ancestors t ↔ a ∈ r.ancestors t ∨ a ∈ r.ancestors m)
  /-- The same mixin once more is counted, and does nothing. -/
  again : r'.includeModule target m = (.ok (), r'.bumpEpoch)

-- ========================================================== the changed link

theorem relinked_of_includeModule (has : r.Has target)
    (h : r.includeModule target m = (.ok (), r')) : Relinked r r' target m := by
  obtain ⟨-, -, -, rfl⟩ := includeModule_inv h
  have hrecord := fun t => record_modifyType r target t fun x =>
    { x with includes := m :: x.includes.filter (· ≠ m) }
  refine { includes_target := ?_, includes_other := fun {t} ne => ?_, superclass_eq := ?_ }
  · exact congrArg TypeRecord.includes ((hrecord target).trans (if_pos ⟨rfl, has⟩))
  · exact congrArg TypeRecord.includes ((hrecord t).trans (if_neg fun h => ne h.1))
  · refine record_modifyType_kept r TypeRecord.superclass ?_
    exact fun _ => rfl

/-- Ways through a relation with one more link use the link or do not. -/
theorem reflTransGen_of_link_iff {α : Type} {R R' : α → α → Prop} {a b : α}
    (links : ∀ x y : α, R' x y ↔ R x y ∨ (x = a ∧ y = b)) {x y : α} :
    Relation.ReflTransGen R' x y ↔ Relation.ReflTransGen R x y
      ∨ (Relation.ReflTransGen R x a ∧ Relation.ReflTransGen R b y) := by
  have hold : R ≤ R' := fun u v h => (links u v).mpr (.inl h)
  constructor
  · intro way
    rcases Relation.reflTransGen_iff_eq_or_transGen.mp way with rfl | way
    · exact .inl .refl
    · exact (transGen_of_link (fun {u v} => (links u v).mp) way).imp_left
        Relation.TransGen.to_reflTransGen
  · rintro (way | ⟨hto, hfrom⟩)
    · exact Relation.ReflTransGen.mono hold _ _ way
    · have hlink : R' a b := (links a b).mpr (.inr ⟨rfl, rfl⟩)
      exact (Relation.ReflTransGen.mono hold _ _ hto).trans
        (.head hlink (Relation.ReflTransGen.mono hold _ _ hfrom))

namespace Relinked

variable (relinked : Relinked r r' target m)

include relinked

theorem link_iff (t u : TypeId) : r'.Link t u ↔ r.Link t u ∨ (t = target ∧ u = m) := by
  unfold Link Includes
  rw [relinked.superclass_eq]
  by_cases ht : t = target
  · subst ht
    rw [relinked.includes_target, List.mem_cons, List.mem_filter]
    by_cases hu : u = m <;> simp [hu]
  · rw [relinked.includes_other ht]
    simp [ht]

/-- What does not lead to the target unfolds as before. -/
theorem unfolds {ms line : List TypeId} (before : r.Unfolds ms line) (out : target ∉ line) :
    r'.Unfolds ms line := by
  induction before with
  | nil => exact .nil
  | cons _ _ ihInner ihRest =>
      rw [List.mem_append, List.mem_cons, not_or, not_or] at out
      obtain ⟨⟨hne, hinner⟩, hrest⟩ := out
      refine .cons ?_ (ihRest hrest)
      rw [relinked.includes_other (Ne.symm hne)]
      exact ihInner hinner

/-- A lineage without the target stays as it was. -/
theorem lineage {start : Option TypeId} {line : List TypeId} (before : r.Lineage start line)
    (out : target ∉ line) : r'.Lineage start line := by
  induction before with
  | nil => exact .nil
  | cons hinner _ ih =>
      rw [List.mem_append, List.mem_cons, not_or, not_or] at out
      obtain ⟨⟨hne, hout⟩, habove⟩ := out
      refine .cons ?_ ?_
      · rw [relinked.includes_other (Ne.symm hne)]
        exact relinked.unfolds hinner hout
      · rw [relinked.superclass_eq]
        exact ih habove

/-- The lineage of the target: what unfolds from the module comes first. -/
theorem lineage_target {below inner above : List TypeId} (hbelow : r.Unfolds [m] below)
    (hinner : r.Unfolds ((r.record target).includes.filter (· ≠ m)) inner)
    (habove : r.Lineage (r.record target).superclass above)
    (out : target ∉ below ++ (inner ++ above)) :
    r'.Lineage (some target) (target :: (below ++ inner) ++ above) := by
  rw [List.mem_append, List.mem_append, not_or, not_or] at out
  obtain ⟨hbelowOut, hinnerOut, haboveOut⟩ := out
  refine .cons ?_ ?_
  · rw [relinked.includes_target]
    exact (relinked.unfolds hbelow hbelowOut).append (relinked.unfolds hinner hinnerOut)
  · rw [relinked.superclass_eq]
    exact relinked.lineage habove haboveOut

end Relinked

/-- Without one of the modules less unfolds, but nothing less of what is not
below it. -/
theorem Unfolds.without {ms line below : List TypeId} (unfolds : r.Unfolds ms line)
    (mem_below : ∀ a, r.Reaches m a → a ∈ below) :
    ∃ line', r.Unfolds (ms.filter (· ≠ m)) line'
      ∧ line'.filter (· ∉ below) = line.filter (· ∉ below) := by
  induction unfolds with
  | nil => exact ⟨[], .nil, rfl⟩
  | @cons n ms inner rest hinner _ _ ih =>
      obtain ⟨line', hline', hsame⟩ := ih
      by_cases hn : n = m
      · -- all that unfolds from it is below it
        subst hn
        have hnone : (n :: inner).filter (· ∉ below) = [] := by
          refine List.filter_eq_nil_iff.mpr fun a mem => ?_
          have hreaches : r.Reaches n a := by
            rcases List.mem_cons.mp mem with rfl | mem
            · exact .refl
            · obtain ⟨k, hk, way⟩ := hinner.mem_iff.mp mem
              exact .head hk way
          simpa using mem_below a hreaches
        refine ⟨line', ?_, ?_⟩
        · rw [List.filter_cons_of_neg (by simp)]
          exact hline'
        · rw [List.filter_append, hnone, List.nil_append, hsame]
      · refine ⟨n :: inner ++ line', ?_, ?_⟩
        · rw [List.filter_cons_of_pos (by simpa using hn)]
          exact .cons hinner hline'
        · rw [List.filter_append, List.filter_append, hsame]

-- ========================================================== lists of ancestors

theorem has_includeModule_iff (h : r.includeModule target m = (.ok (), r')) {t : TypeId} :
    r'.Has t ↔ r.Has t := by
  obtain ⟨-, -, -, rfl⟩ := includeModule_inv h
  have hsize := size_modifyType r target fun x =>
    { x with includes := m :: x.includes.filter (· ≠ m) }
  exact iff_of_eq (congrArg (t.index < ·) hsize)

section includeModule

variable (wf : r.WellFormed) (has : r.Has target) (h : r.includeModule target m = (.ok (), r'))

include wf h

include has

namespace Relinked

/-- Ancestors are the old ones, and below the target those of the module. -/
theorem mem_ancestors_iff {t a : TypeId} (hast : r.Has t) :
    a ∈ r'.ancestors t
      ↔ a ∈ r.ancestors t ∨ (target ∈ r.ancestors t ∧ a ∈ r.ancestors m) := by
  have hast' : r'.Has t := (has_includeModule_iff h).mpr hast
  rw [(wf.includeModule h).mem_ancestors_iff_links hast',
    wf.mem_ancestors_iff_links hast, wf.mem_ancestors_iff_links hast,
    wf.mem_ancestors_iff_links (has_of_module (includeModule_inv h).1)]
  exact reflTransGen_of_link_iff (relinked_of_includeModule has h).link_iff

/-- A type that is not below the target keeps its list. -/
theorem ancestors_other {t : TypeId} (hast : r.Has t) (out : target ∉ r.ancestors t) :
    r'.ancestors t = r.ancestors t := by
  obtain ⟨line, lineage⟩ := wf.exists_lineage t
  have hancestors := lineage.ancestors_eq wf hast
  rw [hancestors, List.mem_eraseDups] at out
  have lineage' := (relinked_of_includeModule has h).lineage lineage out
  rw [hancestors]
  exact lineage'.ancestors_eq (wf.includeModule h)
    ((has_includeModule_iff h).mpr hast)

/-- The list of the target. -/
theorem ancestors_target : ∃ rest, r.ancestors target = target :: rest
    ∧ r'.ancestors target = target :: (r.ancestors m ++ rest.filter (· ∉ r.ancestors m)) := by
  have relinked := relinked_of_includeModule has h
  obtain ⟨below, hbelow⟩ := wf.exists_unfolds [m]
  have hmem : ∀ a, a ∈ below ↔ r.Reaches m a := fun a => by
    rw [hbelow.mem_iff]
    simp
  have hmodule : r.ancestors m = below.eraseDups :=
    (wf.lineage_of_module (includeModule_inv h).1 hbelow).ancestors_eq wf
      (has_of_module (includeModule_inv h).1)
  obtain ⟨line, lineage⟩ := wf.exists_lineage target
  have hold := lineage.ancestors_eq wf has
  cases lineage with
  | @cons _ inner above hinner habove =>
      obtain ⟨inner', hinner', hsame⟩ := hinner.without fun a => (hmem a).mpr
      have hbelowOut : target ∉ below := fun mem =>
        wf.not_reaches_of_includeModule h ((hmem target).mp mem)
      have hinnerOut := hinner.notMem_own wf fun _ mixed => mixed
      have hinnerOut' := hinner'.notMem_own wf fun _ mixed => (List.mem_filter.mp mixed).1
      have haboveOut := habove.notMem_own wf
      refine ⟨(inner ++ above).eraseDups, ?_, ?_⟩
      · rw [hold, List.cons_append, eraseDups_cons_of_notMem]
        exact fun mem => (List.mem_append.mp mem).elim hinnerOut haboveOut
      · -- what is not below the module is the same in the old and the new line
        have hfresh : (inner' ++ above).eraseDups.filter (· ∉ below)
            = (inner ++ above).eraseDups.filter (· ∉ below) := by
          rw [← eraseDups_filter, ← eraseDups_filter, List.filter_append, List.filter_append,
            hsame]
        have hout : target ∉ below ++ (inner' ++ above) := by
          simp [hbelowOut, hinnerOut', haboveOut]
        rw [(relinked.lineage_target hbelow hinner' habove hout).ancestors_eq
            (wf.includeModule h) ((has_includeModule_iff h).mpr has), List.cons_append,
          List.append_assoc, eraseDups_cons_of_notMem hout, eraseDups_append_eq, hfresh, hmodule]
        simp only [List.mem_eraseDups]

end Relinked

-- ============================================================== once more

omit wf h has in
/-- A change that changes nothing at the type it is made at changes nothing. -/
theorem modifyType_eq_self {t : TypeId} {change : TypeRecord → TypeRecord}
    (same : change (r.record t) = r.record t) : r.modifyType t change = r := by
  have htypes : r.types.modify t.index change = r.types := by
    refine List.ext_getElem? fun i => ?_
    rw [List.getElem?_modify]
    by_cases hi : t.index = i
    · subst hi
      cases hplace : r.types[t.index]? with
      | none => rfl
      | some x =>
          have hx : r.record t = x := by
            unfold record
            rw [List.getD_eq_getElem?_getD, hplace]
            rfl
          rw [hx] at same
          simp [same]
    · simp [hi]
  unfold modifyType
  rw [htypes]

omit wf in
/-- The module is in front already. -/
theorem includes_includeModule_again :
    m :: (r'.record target).includes.filter (· ≠ m) = (r'.record target).includes := by
  rw [(relinked_of_includeModule has h).includes_target, List.filter_cons_of_neg (by simp),
    List.filter_filter]
  simp

/-- The same mixin once more moves the epoch and nothing else. -/
theorem includeModule_again : r'.includeModule target m = (.ok (), r'.bumpEpoch) := by
  obtain ⟨module_, -, -, hr'⟩ := includeModule_inv h
  have wf' := wf.includeModule h
  have hkind : (r'.record m).kind = .moduleType := by
    rw [hr', ← module_]
    refine record_modifyType_kept r TypeRecord.kind ?_ m
    exact fun _ => rfl
  have hmixed : r'.Includes target m := by
    unfold Includes
    rw [← includes_includeModule_again has h]
    exact List.mem_cons_self
  have hopen := (guard_iff wf'.nested wf'.size_pos).not.mpr (wf'.not_reaches hmixed)
  have hsame : r'.modifyType target
      (fun t => { t with includes := m :: t.includes.filter (· ≠ m) }) = r' := by
    refine modifyType_eq_self ?_
    rw [includes_includeModule_again has h]
  unfold includeModule
  rw [hkind, if_neg (by simp), if_neg hopen, hsame]

end includeModule

-- ================================================================= the result

/-- What a mixin does in a reachable registry. -/
theorem mixedIn_of_reachable (reachable : r.Reachable) (has : r.Has target)
    (h : r.includeModule target m = (.ok (), r')) : MixedIn r r' target m := by
  have wf := reachable.wellFormed
  exact
    { target_eq := Relinked.ancestors_target wf has h
      other_eq := Relinked.ancestors_other wf has h
      mem_iff := fun hast below =>
        (Relinked.mem_ancestors_iff wf has h hast).trans (or_congr_right (and_iff_right below))
      again := includeModule_again wf has h }

/-- Birds swim as well: swimming comes in front of moving, which it is a way of,
for the bird and before the bird for the duck. -/
theorem mixedIn_of_swimmingBirds :
    let r := initial.run waterfowl
    let r' := r.run [.mixIn ⟨6⟩ ⟨5⟩]
    r.Reachable ∧ r.Has ⟨6⟩ ∧ r.includeModule ⟨6⟩ ⟨5⟩ = (.ok (), r')
      ∧ r'.ancestors ⟨6⟩ = [⟨6⟩, ⟨5⟩, ⟨4⟩, Core.object, Core.basicObject]
      ∧ MixedIn r r' ⟨6⟩ ⟨5⟩ := by
  intro r r'
  have has : r.Has ⟨6⟩ := by decide +kernel
  have hmixed : r.includeModule ⟨6⟩ ⟨5⟩ = (.ok (), r') := by rfl
  exact ⟨reachable_waterfowl, has, hmixed, by decide +kernel,
    mixedIn_of_reachable reachable_waterfowl has hmixed⟩

end ObjectModel.Registry
