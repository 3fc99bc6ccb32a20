/-
Facts about all entries of a chain.

What a chain finds is an entry of it, and no operation on chains brings in an
entry that was not offered. So a property of entries that holds of a new entry,
and that a revision keeps, holds of all entries for ever.
-/
import ObjectModel.GuardChain

namespace ObjectModel.GuardChain

universe u v

variable {ε : Type u} {ρ : Type v} {P Q : ε → Prop} {chain : GuardChain ε}

/-- All entries of a chain have a property. -/
def All (P : ε → Prop) (chain : GuardChain ε) : Prop := ∀ e ∈ chain.entries, P e

/-- A hit is a hit of an entry. -/
theorem exists_of_findMap? {probe : ε → Option ρ} {found : ρ}
    (h : chain.findMap? probe = some found) : ∃ e ∈ chain.entries, probe e = some found := by
  unfold findMap? at h
  split at h
  · cases h
  · obtain ⟨before, e, after, hentries, hprobe, -⟩ := List.findSome?_eq_some_iff.mp h
    exact ⟨e, by rw [hentries]; exact List.mem_append_right _ List.mem_cons_self, hprobe⟩

theorem all_empty (limit : Nat) : (empty limit : GuardChain ε).All P := by
  intro e mem
  cases mem

theorem All.imp (all : chain.All P) (step : ∀ e, P e → Q e) : chain.All Q :=
  fun e mem => step e (all e mem)

theorem All.install {same : ε → ε → Bool} {entry : ε} (all : chain.All P) (new : P entry) :
    (chain.install same entry).2.All P := by
  unfold GuardChain.install
  split
  · exact all
  · split
    · exact all
    · split
      · intro e mem
        cases mem
      · intro e mem
        rcases List.mem_append.mp mem with hold | hnew
        · exact all e hold
        · rw [List.mem_singleton] at hnew
          subst hnew
          exact new

theorem All.retain {keep : ε → Bool} (all : chain.All P) : (chain.retain keep).All P :=
  fun e mem => all e ((List.mem_filter.mp mem).1)

theorem All.revise {change : ε → ε} (all : chain.All P) (kept : ∀ e, P e → P (change e)) :
    (chain.revise change).All P := by
  intro e mem
  obtain ⟨e', mem', rfl⟩ := List.mem_map.mp mem
  exact kept e' (all e' mem')

end ObjectModel.GuardChain
