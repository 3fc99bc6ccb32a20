/-
The ancestors of a type, said without the walk that finds them.

The walk carries along what it has seen, and passes over what it meets again
with all that lies below. The lineage of a type has no such list: it is the
type, then what unfolds from the modules that it mixes in, one after the other,
then the lineage of its superclass, with every repetition written out. The
ancestors are the first occurrences in the lineage (`Lineage.ancestors_eq`), and
what is in it is what links lead to (`Lineage.mem_iff`). So what a change does
to a list of ancestors is read off what it does to a lineage.

What makes this true is that a module is never passed over too early: whenever
one is met that was seen, all that lies below it was seen. Seen and not finished
are only the types that the walk is inside of, and no type is below what it
mixes in (`Saturated`).
-/
import ObjectModel.Proofs.Distinct
import ObjectModel.Proofs.Registry.WellFormed

namespace ObjectModel

namespace Registry

variable {r : Registry}

-- ================================================================== links

/-- One type is the superclass of another or is mixed into it. -/
def Link (r : Registry) (t u : TypeId) : Prop :=
  (r.record t).superclass = some u ∨ r.Includes t u

/-- A module leads to another through what is mixed in. -/
abbrev Reaches (r : Registry) (m a : TypeId) : Prop := Relation.ReflTransGen r.Includes m a

/-- How far links lead at most. Classes lead to modules and never back, so they
rank above all modules. -/
noncomputable def linkRank (r : Registry) (t : TypeId) : Nat :=
  match (r.record t).kind with
  | .classType => r.size + chainRank t
  | .moduleType => r.nesting t

namespace WellFormed

variable (wf : r.WellFormed)

include wf

theorem superclass_of_module {m : TypeId} (module_ : (r.record m).kind = .moduleType) :
    (r.record m).superclass = none := by
  cases hs : (r.record m).superclass with
  | none => rfl
  | some u =>
      have hclass := (wf.superclass_some hs).1
      rw [module_] at hclass
      cases hclass

/-- The rank drops at every link. -/
theorem linkRank_lt {t u : TypeId} (link : r.Link t u) : r.linkRank u < r.linkRank t := by
  unfold linkRank
  rcases link with super | mixed
  · obtain ⟨class_, -, hlt⟩ := wf.superclass_some super
    rw [class_]
    cases (r.record u).kind with
    | classType => exact Nat.add_lt_add_left hlt _
    | moduleType =>
        exact Nat.lt_of_lt_of_le (wf.nested.nesting_lt_size wf.size_pos) (Nat.le_add_right _ _)
  · rw [(wf.includes_module mixed).2]
    cases (r.record t).kind with
    | classType =>
        exact Nat.lt_of_lt_of_le (wf.nested.nesting_lt_size wf.size_pos) (Nat.le_add_right _ _)
    | moduleType => exact wf.nested.nesting_lt mixed

/-- Links close no circle. -/
theorem acyclic_link {t u : TypeId} (way : Relation.TransGen r.Link t u) : t ≠ u := by
  have hlt : r.linkRank u < r.linkRank t := by
    induction way with
    | single link => exact wf.linkRank_lt link
    | tail _ link ih => exact Nat.lt_trans (wf.linkRank_lt link) ih
  rintro rfl
  exact Nat.lt_irrefl _ hlt

/-- From a module, links lead to what is mixed in and nowhere else. -/
theorem links_of_module {m a : TypeId} (module_ : (r.record m).kind = .moduleType) :
    Relation.ReflTransGen r.Link m a ↔ r.Reaches m a := by
  refine ⟨fun way => ?_, fun way => Relation.ReflTransGen.mono (fun _ _ => Or.inr) _ _ way⟩
  induction way using Relation.ReflTransGen.head_induction_on with
  | refl => exact .refl
  | head link _ ih =>
      rcases link with super | mixed
      · rw [wf.superclass_of_module module_] at super
        cases super
      · exact .head mixed (ih (wf.includes_module mixed).2)

/-- Modules lead to no class. -/
theorem module_of_reaches {m a : TypeId} (module_ : (r.record m).kind = .moduleType)
    (way : r.Reaches m a) : (r.record a).kind = .moduleType := by
  rcases way.cases_tail with rfl | ⟨b, -, mixed⟩
  · exact module_
  · exact (wf.includes_module mixed).2

/-- What links lead to is there. -/
theorem has_of_links {t a : TypeId} (has : r.Has t) (way : Relation.ReflTransGen r.Link t a) :
    r.Has a := by
  rcases way.cases_tail with rfl | ⟨b, -, super | mixed⟩
  · exact has
  · exact (wf.superclass_some super).2.1
  · exact (wf.includes_module mixed).1

end WellFormed

-- ================================================================= lineages

/-- Modules one after the other, each followed by what unfolds from the modules
that it mixes in. -/
inductive Unfolds (r : Registry) : List TypeId → List TypeId → Prop where
  | nil : Unfolds r [] []
  | cons {m : TypeId} {ms inner rest : List TypeId} :
      Unfolds r (r.record m).includes inner → Unfolds r ms rest →
        Unfolds r (m :: ms) (m :: inner ++ rest)

/-- A type, what unfolds from the modules that it mixes in, and the same for
each class up the chain. -/
inductive Lineage (r : Registry) : Option TypeId → List TypeId → Prop where
  | nil : Lineage r none []
  | cons {t : TypeId} {inner above : List TypeId} :
      r.Unfolds (r.record t).includes inner → Lineage r (r.record t).superclass above →
        Lineage r (some t) (t :: inner ++ above)

theorem Unfolds.append {ms ns line line' : List TypeId} (unfolds : r.Unfolds ms line)
    (unfolds' : r.Unfolds ns line') : r.Unfolds (ms ++ ns) (line ++ line') := by
  induction unfolds with
  | nil => exact unfolds'
  | cons inner _ _ ih =>
      rw [List.cons_append, List.append_assoc]
      exact .cons inner ih

/-- What unfolds from modules is what they lead to. -/
theorem Unfolds.mem_iff {ms line : List TypeId} (unfolds : r.Unfolds ms line) {a : TypeId} :
    a ∈ line ↔ ∃ m ∈ ms, r.Reaches m a := by
  induction unfolds with
  | nil => simp
  | @cons m ms inner rest _ _ ihInner ihRest =>
      have hown : r.Reaches m a ↔ a = m ∨ ∃ n ∈ (r.record m).includes, r.Reaches n a := by
        rw [Reaches, Relation.ReflTransGen.cases_head_iff, eq_comm]
        rfl
      rw [List.mem_append, List.mem_cons, ihInner, ihRest, ← hown, List.exists_mem_cons_iff]

/-- What is in a lineage is what links lead to. -/
theorem Lineage.mem_iff (wf : r.WellFormed) {start : Option TypeId} {line : List TypeId}
    (lineage : r.Lineage start line) {a : TypeId} :
    a ∈ line ↔ ∃ t ∈ start, Relation.ReflTransGen r.Link t a := by
  induction lineage with
  | nil => simp
  | @cons t inner above unfolds _ ih =>
      have hmixed : a ∈ inner ↔ ∃ m, r.Includes t m ∧ Relation.ReflTransGen r.Link m a := by
        rw [unfolds.mem_iff]
        refine exists_congr fun m => and_congr_right fun mixed => ?_
        exact (wf.links_of_module (wf.includes_module mixed).2).symm
      rw [List.mem_append, List.mem_cons, hmixed, ih]
      constructor
      · rintro ((rfl | ⟨m, mixed, way⟩) | ⟨u, super, way⟩)
        · exact ⟨a, rfl, .refl⟩
        · exact ⟨t, rfl, .head (.inr mixed) way⟩
        · exact ⟨t, rfl, .head (.inl super) way⟩
      · rintro ⟨_, ht, way⟩
        obtain rfl := Option.some_inj.mp ht
        rcases way.cases_head with rfl | ⟨u, super | mixed, way⟩
        · exact .inl (.inl rfl)
        · exact .inr ⟨u, super, way⟩
        · exact .inl (.inr ⟨u, mixed, way⟩)

namespace WellFormed

variable (wf : r.WellFormed)

include wf

/-- Modules unfold: what they mix in is less deep. -/
theorem exists_unfolds_of_lt : ∀ (n : Nat) (ms : List TypeId), (∀ m ∈ ms, r.nesting m < n) →
    ∃ line, r.Unfolds ms line := by
  intro n
  induction n with
  | zero =>
      intro ms shallow
      cases ms with
      | nil => exact ⟨[], .nil⟩
      | cons m ms => exact absurd (shallow m List.mem_cons_self) (Nat.not_lt_zero _)
  | succ n ih =>
      intro ms
      induction ms with
      | nil => exact fun _ => ⟨[], .nil⟩
      | cons m ms ihList =>
          intro shallow
          have hm := shallow m List.mem_cons_self
          obtain ⟨inner, hinner⟩ := ih (r.record m).includes fun a mem =>
            Nat.lt_of_lt_of_le (wf.nested.nesting_lt mem) (Nat.le_of_lt_succ hm)
          obtain ⟨rest, hrest⟩ := ihList fun a mem => shallow a (List.mem_cons_of_mem _ mem)
          exact ⟨_, .cons hinner hrest⟩

theorem exists_unfolds (ms : List TypeId) : ∃ line, r.Unfolds ms line :=
  wf.exists_unfolds_of_lt r.size ms fun _ _ => wf.nested.nesting_lt_size wf.size_pos

/-- Every type has a lineage. -/
theorem exists_lineage (t : TypeId) : ∃ line, r.Lineage (some t) line := by
  obtain ⟨inner, hinner⟩ := wf.exists_unfolds (r.record t).includes
  cases hs : (r.record t).superclass with
  | none => exact ⟨_, .cons hinner (by rw [hs]; exact .nil)⟩
  | some u =>
      have hlt := (wf.superclass_some hs).2.2
      obtain ⟨above, habove⟩ := exists_lineage u
      exact ⟨_, .cons hinner (by rw [hs]; exact habove)⟩
termination_by chainRank t

/-- A module has no lineage but what unfolds from it. -/
theorem lineage_of_module {m : TypeId} {line : List TypeId}
    (module_ : (r.record m).kind = .moduleType) (unfolds : r.Unfolds [m] line) :
    r.Lineage (some m) line := by
  cases unfolds with
  | cons inner rest =>
      cases rest
      exact .cons inner (by rw [wf.superclass_of_module module_]; exact .nil)

end WellFormed

-- ================================================================= the walks

/-- What was seen and lies below some modules was seen with all below it. -/
def Saturated (r : Registry) (ms seen : List TypeId) : Prop :=
  ∀ m ∈ ms, ∀ a ∈ seen, r.Reaches m a → ∀ b, r.Reaches a b → b ∈ seen

/-- What was seen was seen with all that it mixes in. -/
def Finished (r : Registry) (seen : List TypeId) : Prop :=
  ∀ a ∈ seen, ∀ b, r.Reaches a b → b ∈ seen

/-- What a type mixes in does not lead back to it. -/
theorem WellFormed.not_reaches (wf : r.WellFormed) {t m : TypeId} (mixed : r.Includes t m) :
    ¬ r.Reaches m t :=
  fun way => wf.includes_acyclic t (.head' mixed way)

/-- No type is in what unfolds from its own mixins. -/
theorem Unfolds.notMem_own (wf : r.WellFormed) {t : TypeId} {ms line : List TypeId}
    (unfolds : r.Unfolds ms line) (mixed : ∀ m ∈ ms, r.Includes t m) : t ∉ line := by
  intro mem
  obtain ⟨m, hm, way⟩ := unfolds.mem_iff.mp mem
  exact wf.not_reaches (mixed m hm) way

/-- No type is in the lineage of its superclass. -/
theorem Lineage.notMem_own (wf : r.WellFormed) {t : TypeId} {above : List TypeId}
    (lineage : r.Lineage (r.record t).superclass above) : t ∉ above := by
  intro mem
  obtain ⟨u, super, way⟩ := (lineage.mem_iff wf).mp mem
  exact wf.acyclic_link (.head' (.inl super) way) rfl

/-- A type whose mixins are about to be walked through is seen and not finished,
but it is not below them. -/
theorem WellFormed.saturated_own (wf : r.WellFormed) {seen : List TypeId} {t : TypeId}
    (finished : ∀ m, r.Includes t m → ∀ a ∈ seen, r.Reaches m a → ∀ b, r.Reaches a b →
      b ∈ seen) : r.Saturated (r.record t).includes (seen ++ [t]) := by
  intro m mixed a mem hma b hab
  rcases List.mem_append.mp mem with hseen | hown
  · exact List.mem_append_left _ (finished m mixed a hseen hma b hab)
  · rw [List.mem_singleton.mp hown] at hma
    exact absurd hma (wf.not_reaches mixed)

/-- A walk ends where there is no superclass. -/
theorem chainWalk_none (r : Registry) (fuel : Nat) (seen : List TypeId) :
    r.chainWalk fuel none seen = seen := by
  cases fuel with
  | zero => rfl
  | succ fuel => rfl

/-- A walk through modules adds the first occurrences in what unfolds from them.
The induction is on the unfolding; `Saturated` carries it. -/
theorem Unfolds.foldl_moduleWalk (wf : r.WellFormed) {ms line : List TypeId}
    (unfolds : r.Unfolds ms line) : ∀ {fuel : Nat} {seen : List TypeId},
      (∀ m ∈ ms, r.nesting m < fuel) → seen.Nodup → r.Saturated ms seen →
        ms.foldl (fun seen m => r.moduleWalk fuel m seen) seen = (seen ++ line).eraseDups := by
  induction unfolds with
  | nil =>
      intro fuel seen _ nodup _
      rw [List.append_nil, eraseDups_of_nodup nodup]
      rfl
  | @cons m ms inner rest hinner hrest ihInner ihRest =>
      intro fuel seen shallow nodup saturated
      have hbelow : ∀ {a : TypeId}, a ∈ m :: inner ↔ r.Reaches m a := by
        intro a
        have hmem := (Unfolds.cons hinner .nil).mem_iff (a := a)
        rwa [List.append_nil, List.exists_mem_cons_iff, or_iff_left (by simp)] at hmem
      have hshallow : ∀ a ∈ ms, r.nesting a < fuel :=
        fun a mem => shallow a (List.mem_cons_of_mem _ mem)
      have hm := shallow m List.mem_cons_self
      obtain ⟨fuel, rfl⟩ := Nat.exists_eq_succ_of_ne_zero (Nat.ne_of_gt (Nat.zero_lt_of_lt hm))
      have hwalk : r.moduleWalk (fuel + 1) m seen = (seen ++ (m :: inner)).eraseDups := by
        unfold moduleWalk
        by_cases hseen : m ∈ seen
        · rw [if_pos hseen, eraseDups_append_of_subset nodup fun a mem =>
            saturated m List.mem_cons_self m hseen .refl a (hbelow.mp mem)]
        · have hown : (seen ++ [m]).Nodup :=
            List.nodup_append.mpr ⟨nodup, List.nodup_singleton m, fun a ha b hb hab =>
              hseen (List.mem_singleton.mp hb ▸ hab ▸ ha)⟩
          have hsaturated := wf.saturated_own (t := m) fun n mixed a mem hna b hab =>
            saturated m List.mem_cons_self a mem (.head mixed hna) b hab
          rw [if_neg hseen, ihInner (fun a mem =>
              Nat.lt_of_lt_of_le (wf.nested.nesting_lt mem) (Nat.le_of_lt_succ hm))
            hown hsaturated, List.append_assoc]
          rfl
      have hsaturated : r.Saturated ms (seen ++ (m :: inner)).eraseDups := by
        intro n hn a mem hna b hab
        rw [List.mem_eraseDups, List.mem_append] at mem ⊢
        rcases mem with hseen | hown
        · exact .inl (saturated n (List.mem_cons_of_mem _ hn) a hseen hna b hab)
        · exact .inr (hbelow.mpr ((hbelow.mp hown).trans hab))
      rw [List.foldl_cons, hwalk, ihRest hshallow (nodup_eraseDups _) hsaturated,
        eraseDups_eraseDups_append, List.append_assoc]

/-- A walk up a chain adds the first occurrences in the lineage. -/
theorem Lineage.chainWalk_eq (wf : r.WellFormed) {start : Option TypeId} {line : List TypeId}
    (lineage : r.Lineage start line) : ∀ {fuel : Nat} {seen : List TypeId},
      (∀ t ∈ start, chainRank t < fuel) → seen.Nodup → r.Finished seen →
        r.chainWalk fuel start seen = (seen ++ line).eraseDups := by
  induction lineage with
  | nil =>
      intro fuel seen _ nodup _
      rw [chainWalk_none, List.append_nil, eraseDups_of_nodup nodup]
  | @cons t inner above hinner _ ih =>
      intro fuel seen short nodup finished
      have ht := short t rfl
      obtain ⟨fuel, rfl⟩ := Nat.exists_eq_succ_of_ne_zero (Nat.ne_of_gt (Nat.zero_lt_of_lt ht))
      have hown : (if t ∈ seen then seen else seen ++ [t]) = (seen ++ [t]).eraseDups := by
        split
        · next hseen =>
          refine (eraseDups_append_of_subset nodup fun a mem => ?_).symm
          exact List.mem_singleton.mp mem ▸ hseen
        · next hseen =>
          refine (eraseDups_of_nodup (List.nodup_append.mpr
            ⟨nodup, List.nodup_singleton t, fun a ha b hb hab => ?_⟩)).symm
          exact hseen (List.mem_singleton.mp hb ▸ hab ▸ ha)
      have hsaturated : r.Saturated (r.record t).includes (seen ++ [t]).eraseDups := by
        have hplain := wf.saturated_own (t := t) fun _ _ a mem _ => finished a mem
        intro m mixed a mem
        simp only [List.mem_eraseDups] at mem ⊢
        exact hplain m mixed a mem
      have hmixed : (r.record t).includes.foldl (fun seen m => r.moduleWalk r.size m seen)
          (seen ++ [t]).eraseDups = (seen ++ t :: inner).eraseDups := by
        rw [hinner.foldl_moduleWalk wf (fun _ _ => wf.nested.nesting_lt_size wf.size_pos)
          (nodup_eraseDups _) hsaturated, eraseDups_eraseDups_append, List.append_assoc]
        rfl
      have hfinished : r.Finished (seen ++ t :: inner).eraseDups := by
        intro a mem b hab
        rw [List.mem_eraseDups, List.mem_append, List.mem_cons] at mem ⊢
        rcases mem with hseen | rfl | hin
        · exact .inl (finished a hseen b hab)
        · rcases hab.cases_head with rfl | ⟨m, mixed, hmb⟩
          · exact .inr (.inl rfl)
          · exact .inr (.inr (hinner.mem_iff.mpr ⟨m, mixed, hmb⟩))
        · obtain ⟨m, mixed, hma⟩ := hinner.mem_iff.mp hin
          exact .inr (.inr (hinner.mem_iff.mpr ⟨m, mixed, hma.trans hab⟩))
      have hshort : ∀ u ∈ (r.record t).superclass, chainRank u < fuel := by
        intro u super
        have hlt := (wf.superclass_some super).2.2
        omega
      unfold chainWalk
      dsimp only
      rw [hown, hmixed, ih hshort (nodup_eraseDups _) hfinished, eraseDups_eraseDups_append,
        List.append_assoc]

section ancestors

variable (wf : r.WellFormed) {t : TypeId} (has : r.Has t)

include wf has

/-- The ancestors of a type are the first occurrences in its lineage. -/
theorem Lineage.ancestors_eq {line : List TypeId} (lineage : r.Lineage (some t) line) :
    r.ancestors t = line.eraseDups := by
  refine lineage.chainWalk_eq wf ?_ List.nodup_nil fun _ mem => absurd mem List.not_mem_nil
  intro u hu
  rw [← Option.some_inj.mp hu]
  exact chainRank_lt_size wf.four_le_size has

/-- The ancestors of a type are what links lead to. -/
theorem WellFormed.mem_ancestors_iff_links {a : TypeId} :
    a ∈ r.ancestors t ↔ Relation.ReflTransGen r.Link t a := by
  obtain ⟨line, lineage⟩ := wf.exists_lineage t
  rw [lineage.ancestors_eq wf has, List.mem_eraseDups, lineage.mem_iff wf]
  simp

theorem WellFormed.nodup_ancestors : (r.ancestors t).Nodup := by
  obtain ⟨line, lineage⟩ := wf.exists_lineage t
  rw [lineage.ancestors_eq wf has]
  exact nodup_eraseDups line

end ancestors

end Registry

end ObjectModel
