/-
First occurrences.

Of a list with repetitions, `eraseDups` keeps the first occurrence of
everything. How it goes with filters and with lists that go on.
-/
import Mathlib.Data.List.Nodup
import Mathlib.Data.List.Perm.Subperm

namespace ObjectModel

variable {α : Type} [DecidableEq α]

theorem nodup_eraseDups (l : List α) : l.eraseDups.Nodup := by
  match l with
  | [] => exact List.nodup_nil
  | a :: rest =>
      rw [List.eraseDups_cons, List.nodup_cons, List.mem_eraseDups, List.mem_filter]
      refine ⟨fun h => ?_, nodup_eraseDups _⟩
      simp at h
termination_by l.length
decreasing_by exact Nat.lt_succ_of_le (List.length_filter_le _ _)

/-- A filter may come before or after. -/
theorem eraseDups_filter (p : α → Bool) (l : List α) :
    (l.filter p).eraseDups = l.eraseDups.filter p := by
  match l with
  | [] => rfl
  | a :: rest =>
      have hrest := eraseDups_filter p (rest.filter fun b => !b == a)
      rw [List.filter_comm] at hrest
      rw [List.eraseDups_cons]
      by_cases ha : p a
      · rw [List.filter_cons_of_pos ha, List.filter_cons_of_pos ha, List.eraseDups_cons, hrest]
      · -- what equals `a` is out on both sides
        have hsame : (rest.filter p).filter (fun b => !b == a) = rest.filter p := by
          refine List.filter_eq_self.mpr fun b hb => ?_
          have hne : b ≠ a := by
            rintro rfl
            exact ha (List.mem_filter.mp hb).2
          simpa using hne
        rw [List.filter_cons_of_neg ha, List.filter_cons_of_neg ha, ← hrest, hsame]
termination_by l.length
decreasing_by exact Nat.lt_succ_of_le (List.length_filter_le _ _)

/-- Of a list that goes on, only what is new counts. -/
theorem eraseDups_append_eq (l l' : List α) :
    (l ++ l').eraseDups = l.eraseDups ++ l'.eraseDups.filter (· ∉ l) := by
  have hremove : l'.removeAll l = l'.filter (· ∉ l) := by
    unfold List.removeAll
    refine List.filter_congr fun a _ => ?_
    simp
  rw [List.eraseDups_append, hremove, eraseDups_filter]

/-- What does not come again stands in front. -/
theorem eraseDups_cons_of_notMem {a : α} {l : List α} (fresh : a ∉ l) :
    (a :: l).eraseDups = a :: l.eraseDups := by
  have hsame : l.filter (fun b => !b == a) = l := by
    refine List.filter_eq_self.mpr fun b hb => ?_
    have hne : b ≠ a := by
      rintro rfl
      exact fresh hb
    simpa using hne
  rw [List.eraseDups_cons, hsame]

theorem eraseDups_of_nodup {l : List α} (nodup : l.Nodup) : l.eraseDups = l := by
  induction l with
  | nil => rfl
  | cons a rest ih =>
      obtain ⟨fresh, nodup⟩ := List.nodup_cons.mp nodup
      rw [eraseDups_cons_of_notMem fresh, ih nodup]

/-- Erasing at the start already changes nothing. -/
theorem eraseDups_eraseDups_append (l l' : List α) :
    (l.eraseDups ++ l').eraseDups = (l ++ l').eraseDups := by
  rw [eraseDups_append_eq, eraseDups_append_eq, eraseDups_of_nodup (nodup_eraseDups l)]
  refine congrArg (l.eraseDups ++ ·) (List.filter_congr fun a _ => ?_)
  simp only [List.mem_eraseDups]

/-- What is there already adds nothing. -/
theorem eraseDups_append_of_subset {l l' : List α} (nodup : l.Nodup) (old : ∀ a ∈ l', a ∈ l) :
    (l ++ l').eraseDups = l := by
  have hnone : l'.eraseDups.filter (· ∉ l) = [] := by
    refine List.filter_eq_nil_iff.mpr fun a ha => ?_
    simpa using old a (List.mem_eraseDups.mp ha)
  rw [eraseDups_append_eq, hnone, List.append_nil, eraseDups_of_nodup nodup]

/-- What is in a list, in the order in which it comes first. -/
def firstSeen (l : List α) : List α := l.eraseDups

@[simp] theorem mem_firstSeen {a : α} {l : List α} : a ∈ firstSeen l ↔ a ∈ l :=
  List.mem_eraseDups

theorem firstSeen_concat_of_mem {a : α} {l : List α} (old : a ∈ l) :
    firstSeen (l ++ [a]) = firstSeen l := by
  unfold firstSeen
  rw [eraseDups_append_eq, eraseDups_of_nodup (List.nodup_singleton a),
    List.filter_cons_of_neg (by simpa using old), List.filter_nil, List.append_nil]

theorem firstSeen_concat_of_notMem {a : α} {l : List α} (fresh : a ∉ l) :
    firstSeen (l ++ [a]) = firstSeen l ++ [a] := by
  unfold firstSeen
  rw [eraseDups_append_eq, eraseDups_of_nodup (List.nodup_singleton a),
    List.filter_cons_of_pos (by simpa using fresh), List.filter_nil]

/-- A longer list starts with what was seen first in a shorter one. -/
theorem prefix_firstSeen {l l' : List α} (longer : l <+: l') : firstSeen l <+: firstSeen l' := by
  obtain ⟨added, rfl⟩ := longer
  unfold firstSeen
  rw [eraseDups_append_eq]
  exact List.prefix_append _ _

/-- What is in a list has a place among what was seen first. -/
theorem exists_place {a : α} {l : List α} (mem : a ∈ l) : ∃ p : Nat, (firstSeen l)[p]? = some a :=
  List.mem_iff_getElem?.mp (mem_firstSeen.mpr mem)

/-- What has a place was seen. -/
theorem mem_of_place {a : α} {l : List α} {p : Nat} (place : (firstSeen l)[p]? = some a) : a ∈ l :=
  mem_firstSeen.mp (List.mem_of_getElem? place)

/-- Places are different if and only if what was seen first there is. -/
theorem place_eq_iff {a b : α} {l : List α} {p q : Nat} (ha : (firstSeen l)[p]? = some a)
    (hb : (firstSeen l)[q]? = some b) : p = q ↔ a = b := by
  constructor
  · rintro rfl
    exact Option.some.inj (ha.symm.trans hb)
  · rintro rfl
    have hp : p < (firstSeen l).length := (List.getElem?_eq_some_iff.mp ha).1
    exact (List.getElem?_inj hp (nodup_eraseDups l)).mp (ha.trans hb.symm)

/-- A list with all that another has, and perhaps more, has no fewer different
elements. -/
theorem length_firstSeen_le_of_subset {l l' : List α} (subset : l ⊆ l') :
    (firstSeen l).length ≤ (firstSeen l').length := by
  refine ((nodup_eraseDups l).subperm fun a ha => ?_).length_le
  exact mem_firstSeen.mpr (subset (List.mem_eraseDups.mp ha))

end ObjectModel
