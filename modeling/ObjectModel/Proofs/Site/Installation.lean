/-
What a chain holds after any calls.

A chain is offered entries, drops some of them and is asked for hits, in any
order. Two things are proved of what it holds. The first is about the chain alone
(`WellFormed`): it is within its limit, no two of its entries are the same, and if
it has given up it is empty. Every call keeps this.

The second is about the calls. An entry stands if it was added and no call since
then has dropped it (`Standing`). As long as the chain has not given up, its
entries are those that stand, in the order of installation. An entry goes by the
place of its call, and not by its value, because what was dropped can be added
again, and is then younger than what was added in between. Induction on the calls
from the last one: a call adds the youngest entry or leaves out some, so the
places of what is left still increase.
-/
import Mathlib.Data.List.Induction
import ObjectModel.GuardChain
import ObjectModel.Proofs.Places

namespace ObjectModel.GuardChain

universe u v

-- ====================================================================== calls

/-- A call that may be made of a chain. -/
inductive Call (ε : Type u) : Type (max u (v + 1)) where
  | install (entry : ε)
  | retain (keep : ε → Bool)
  | findMap {ρ : Type v} (probe : ε → Option ρ)

variable {ε : Type u} {ρ : Type v} {same : ε → ε → Bool} {limit : Nat}

/-- The chain that a call leaves. -/
def perform (chain : GuardChain ε) (same : ε → ε → Bool) : Call.{u, v} ε → GuardChain ε
  | .install entry => (chain.install same entry).2
  | .retain keep => chain.retain keep
  | .findMap _ => chain

/-- A new chain after some calls. -/
def after (same : ε → ε → Bool) (limit : Nat) (calls : List (Call.{u, v} ε)) : GuardChain ε :=
  calls.foldl (·.perform same) (empty limit)

/-- An entry that was added by the call at a place, and that no call since then has
dropped. -/
structure Standing (same : ε → ε → Bool) (limit : Nat) (calls : List (Call.{u, v} ε)) (i : Nat)
    (entry : ε) : Prop where
  call_eq : calls[i]? = some (.install entry)
  added : ((after same limit (calls.take i)).install same entry).1 = .added
  kept : ∀ j keep, i < j → calls[j]? = some (.retain keep) → keep entry = true

/-- A chain that has given up. -/
structure Abandoned (chain : GuardChain ε) : Prop where
  megamorphic_eq : chain.megamorphic = true
  entries_eq : chain.entries = []

/-- What a chain holds after some calls, and what it answers to the next one. -/
structure Keeps (same : ε → ε → Bool) (limit : Nat) (calls : List (Call.{u, v} ε)) : Prop where
  length_le : (after same limit calls).entries.length ≤ limit
  distinct : ∀ {i j : Nat} {a b : ε}, (after same limit calls).entries[i]? = some a →
    (after same limit calls).entries[j]? = some b → same a b = true → i = j
  present_iff : ∀ entry, ((after same limit calls).install same entry).1 = .present
    ↔ ∃ held ∈ (after same limit calls).entries, same held entry = true
  megamorphic_iff : ∀ entry, ((after same limit calls).install same entry).1 = .megamorphic
    ↔ (after same limit calls).megamorphic = true
      ∨ ((after same limit calls).entries.length = limit
        ∧ ∀ held ∈ (after same limit calls).entries, same held entry = false)
  added_iff : ∀ entry, ((after same limit calls).install same entry).1 = .added
    ↔ (after same limit calls).megamorphic = false
      ∧ (after same limit calls).entries.length < limit
      ∧ ∀ held ∈ (after same limit calls).entries, same held entry = false
  /-- A chain gives up when it answers so, and at no other time. -/
  gave_up_iff : (after same limit calls).megamorphic = true
    ↔ ∃ i entry, calls[i]? = some (.install entry)
      ∧ ((after same limit (calls.take i)).install same entry).1 = .megamorphic
  /-- A chain that has given up is empty, and finds nothing, whatever comes. -/
  for_good : (after same limit calls).megamorphic = true → ∀ more : List (Call.{u, v} ε),
    (after same limit (calls ++ more)).Abandoned
      ∧ ∀ (ρ : Type v) (probe : ε → Option ρ),
        (after same limit (calls ++ more)).findMap? probe = none
  /-- A chain holds what stands. -/
  mem_iff : (after same limit calls).megamorphic = false → ∀ entry,
    entry ∈ (after same limit calls).entries ↔ ∃ i, Standing same limit calls i entry
  /-- A hit is the first one in the order of installation. -/
  finds_iff : (after same limit calls).megamorphic = false →
    ∀ (ρ : Type v) (probe : ε → Option ρ) (hit : ρ),
      (after same limit calls).findMap? probe = some hit
        ↔ ∃ i entry, Standing same limit calls i entry ∧ probe entry = some hit
          ∧ ∀ j earlier, j < i → Standing same limit calls j earlier → probe earlier = none

-- =============================================================== installation

variable {chain : GuardChain ε} {entry : ε} {calls : List (Call.{u, v} ε)} {call : Call.{u, v} ε}

/-- What becomes of an entry that is offered to a chain. -/
inductive Offer (chain : GuardChain ε) (same : ε → ε → Bool) (entry : ε) :
    Install × GuardChain ε → Prop where
  | abandoned (given_up : chain.megamorphic = true) :
      Offer chain same entry (.megamorphic, chain)
  | held (going : chain.megamorphic = false) (old : ∃ e ∈ chain.entries, same e entry = true) :
      Offer chain same entry (.present, chain)
  | full (going : chain.megamorphic = false) (new : ∀ e ∈ chain.entries, same e entry = false)
      (no_room : chain.limit ≤ chain.entries.length) :
      Offer chain same entry (.megamorphic, { chain with entries := [], megamorphic := true })
  | room (going : chain.megamorphic = false) (new : ∀ e ∈ chain.entries, same e entry = false)
      (lt : chain.entries.length < chain.limit) :
      Offer chain same entry (.added, { chain with entries := chain.entries ++ [entry] })

theorem offer_install (chain : GuardChain ε) (same : ε → ε → Bool) (entry : ε) :
    Offer chain same entry (chain.install same entry) := by
  unfold install
  by_cases given_up : chain.megamorphic = true
  · rw [if_pos given_up]
    exact .abandoned given_up
  rw [if_neg given_up]
  rw [Bool.not_eq_true] at given_up
  by_cases old : chain.entries.any (same · entry) = true
  · rw [if_pos old]
    exact .held given_up (List.any_eq_true.mp old)
  rw [if_neg old]
  have new : ∀ e ∈ chain.entries, same e entry = false := by simpa using old
  by_cases no_room : chain.limit ≤ chain.entries.length
  · rw [if_pos no_room]
    exact .full given_up new no_room
  · rw [if_neg no_room]
    exact .room given_up new (Nat.lt_of_not_le no_room)

-- ============================================================ the chain alone

/-- What holds of a chain by itself, whatever was called. -/
structure WellFormed (same : ε → ε → Bool) (limit : Nat) (chain : GuardChain ε) : Prop where
  limit_eq : chain.limit = limit
  length_le : chain.entries.length ≤ limit
  pairwise : chain.entries.Pairwise (same · · = false)
  entries_eq : chain.megamorphic = true → chain.entries = []

theorem wellFormed_empty : WellFormed same limit (empty limit) where
  limit_eq := rfl
  length_le := Nat.zero_le limit
  pairwise := List.Pairwise.nil
  entries_eq _ := rfl

theorem WellFormed.install (wf : WellFormed same limit chain) (entry : ε) :
    WellFormed same limit (chain.install same entry).2 := by
  have offer := chain.offer_install same entry
  generalize chain.install same entry = result at offer ⊢
  cases offer with
  | abandoned => exact wf
  | held => exact wf
  | full => exact ⟨wf.limit_eq, Nat.zero_le limit, List.Pairwise.nil, fun _ => rfl⟩
  | room going new lt =>
      constructor
      · exact wf.limit_eq
      · simp only [List.length_append, List.length_singleton]
        have := wf.limit_eq
        omega
      · refine List.pairwise_append.mpr ⟨wf.pairwise, List.pairwise_singleton _ _, ?_⟩
        simpa using new
      · intro given_up
        simp [going] at given_up

theorem WellFormed.retain (wf : WellFormed same limit chain) (keep : ε → Bool) :
    WellFormed same limit (chain.retain keep) where
  limit_eq := wf.limit_eq
  length_le := Nat.le_trans (List.length_filter_le _ _) wf.length_le
  pairwise := wf.pairwise.filter _
  entries_eq given_up := by simp [GuardChain.retain, wf.entries_eq given_up]

/-- A chain stays well formed. -/
theorem WellFormed.perform (wf : WellFormed same limit chain) (call : Call.{u, v} ε) :
    WellFormed same limit (chain.perform same call) := by
  cases call with
  | install entry => exact wf.install entry
  | retain keep => exact wf.retain keep
  | findMap probe => exact wf

theorem after_concat (calls : List (Call.{u, v} ε)) (call : Call.{u, v} ε) :
    after same limit (calls ++ [call]) = (after same limit calls).perform same call := by
  simp [after]

theorem wellFormed_after (calls : List (Call.{u, v} ε)) :
    WellFormed same limit (after same limit calls) := by
  induction calls using List.reverseRecOn with
  | nil => exact wellFormed_empty
  | append_singleton calls call ih =>
      rw [after_concat]
      exact ih.perform call

theorem WellFormed.present_iff (wf : WellFormed same limit chain) :
    (chain.install same entry).1 = .present ↔ ∃ held ∈ chain.entries, same held entry = true := by
  have offer := chain.offer_install same entry
  generalize chain.install same entry = result at offer ⊢
  cases offer with
  | abandoned given_up => simp [wf.entries_eq given_up]
  | held going old => simpa using old
  | full going new no_room => simpa using new
  | room going new lt => simpa using new

theorem WellFormed.added_iff (wf : WellFormed same limit chain) :
    (chain.install same entry).1 = .added ↔ chain.megamorphic = false
      ∧ chain.entries.length < limit ∧ ∀ held ∈ chain.entries, same held entry = false := by
  have offer := chain.offer_install same entry
  have limit_eq := wf.limit_eq
  generalize chain.install same entry = result at offer ⊢
  cases offer with
  | abandoned given_up => simp [given_up]
  | held going old =>
      have not_new : ¬ ∀ held ∈ chain.entries, same held entry = false := by simpa using old
      simp [not_new]
  | full going new no_room =>
      simp only [reduceCtorEq, false_iff]
      omega
  | room going new lt => simpa [going, ← limit_eq, lt] using new

theorem WellFormed.megamorphic_iff (wf : WellFormed same limit chain) :
    (chain.install same entry).1 = .megamorphic ↔ chain.megamorphic = true
      ∨ (chain.entries.length = limit ∧ ∀ held ∈ chain.entries, same held entry = false) := by
  have offer := chain.offer_install same entry
  have limit_eq := wf.limit_eq
  have length_le := wf.length_le
  generalize chain.install same entry = result at offer ⊢
  cases offer with
  | abandoned given_up => simp [given_up]
  | held going old =>
      have not_new : ¬ ∀ held ∈ chain.entries, same held entry = false := by simpa using old
      simp [going, not_new]
  | full going new no_room =>
      simp only [true_iff]
      exact .inr ⟨by omega, new⟩
  | room going new lt =>
      simp only [reduceCtorEq, going, Bool.false_eq_true, false_or, false_iff]
      omega

/-- Different places hold entries that are not the same. -/
theorem WellFormed.distinct (wf : WellFormed same limit chain)
    (symm : ∀ {a b : ε}, same a b = true → same b a = true) {i j : Nat} {a b : ε}
    (ha : chain.entries[i]? = some a) (hb : chain.entries[j]? = some b)
    (hsame : same a b = true) : i = j := by
  obtain ⟨hi, rfl⟩ := List.getElem?_eq_some_iff.mp ha
  obtain ⟨hj, rfl⟩ := List.getElem?_eq_some_iff.mp hb
  have pairwise := List.pairwise_iff_getElem.mp wf.pairwise
  by_contra ne
  rcases Nat.lt_or_gt_of_ne ne with lt | gt
  · rw [pairwise i j hi hj lt] at hsame
    cases hsame
  · have hback := symm hsame
    rw [pairwise j i hj hi gt] at hback
    cases hback

-- ============================================================== giving up

theorem Abandoned.perform (abandoned : chain.Abandoned) (call : Call.{u, v} ε) :
    (chain.perform same call).Abandoned := by
  cases call with
  | install entry =>
      have offer := chain.offer_install same entry
      show (chain.install same entry).2.Abandoned
      generalize chain.install same entry = result at offer ⊢
      cases offer with
      | abandoned => exact abandoned
      | held => exact abandoned
      | full => exact ⟨rfl, rfl⟩
      | room going => simp [abandoned.megamorphic_eq] at going
  | retain keep => exact ⟨abandoned.megamorphic_eq, by
      simp [GuardChain.perform, GuardChain.retain, abandoned.entries_eq]⟩
  | findMap probe => exact abandoned

/-- A chain that has given up never comes back. -/
theorem Abandoned.after (abandoned : (after same limit calls).Abandoned)
    (more : List (Call.{u, v} ε)) : (GuardChain.after same limit (calls ++ more)).Abandoned := by
  induction more using List.reverseRecOn with
  | nil => simpa using abandoned
  | append_singleton more call ih =>
      rw [← List.append_assoc, after_concat]
      exact ih.perform call

theorem abandoned_after (given_up : (after same limit calls).megamorphic = true) :
    (after same limit calls).Abandoned :=
  ⟨given_up, (wellFormed_after calls).entries_eq given_up⟩

theorem Abandoned.findMap?_eq (abandoned : chain.Abandoned) (probe : ε → Option ρ) :
    chain.findMap? probe = none := by
  simp [findMap?, abandoned.megamorphic_eq]

/-- A chain that is asked to take in an entry gives up if and only if it answers so. -/
theorem megamorphic_install_iff : (chain.install same entry).2.megamorphic = true
    ↔ (chain.install same entry).1 = .megamorphic := by
  have offer := chain.offer_install same entry
  generalize chain.install same entry = result at offer ⊢
  cases offer with
  | abandoned given_up => simp [given_up]
  | held going => simp [going]
  | full => simp
  | room going => simp [going]

/-- A call makes a chain give up, or the chain had given up before. -/
theorem megamorphic_perform_iff : (chain.perform same call).megamorphic = true
    ↔ chain.megamorphic = true ∨ ∃ entry, call = .install entry
      ∧ (chain.install same entry).1 = .megamorphic := by
  cases call with
  | install entry =>
      simp only [perform, megamorphic_install_iff, Call.install.injEq, exists_eq_left', iff_or_self]
      intro given_up
      simp [install, given_up]
  | retain keep => simp [perform, retain]
  | findMap probe => simp [perform]

/-- A chain gives up when it answers so, and at no other time. -/
theorem gave_up_iff : (after same limit calls).megamorphic = true
    ↔ ∃ i entry, calls[i]? = some (.install entry)
      ∧ ((after same limit (calls.take i)).install same entry).1 = .megamorphic := by
  constructor
  · induction calls using List.reverseRecOn with
    | nil => simp [after, empty]
    | append_singleton calls call ih =>
        rw [after_concat, megamorphic_perform_iff]
        intro h
        rcases h with before | ⟨entry, rfl, now⟩
        · obtain ⟨i, entry, call_eq, answer⟩ := ih before
          have hi := (List.getElem?_eq_some_iff.mp call_eq).1
          refine ⟨i, entry, getElem?_of_longer (List.prefix_append _ _) call_eq, ?_⟩
          rw [List.take_append_of_le_length (Nat.le_of_lt hi)]
          exact answer
        · exact ⟨calls.length, entry, List.getElem?_concat_length, by simpa using now⟩
  · intro h
    obtain ⟨i, entry, call_eq, answer⟩ := h
    have given_up : (after same limit (calls.take (i + 1))).megamorphic = true := by
      rw [List.take_add_one, call_eq, Option.toList_some, after_concat]
      exact megamorphic_install_iff.mpr answer
    have later := (abandoned_after given_up).after (calls.drop (i + 1))
    rw [List.take_append_drop] at later
    exact later.megamorphic_eq

-- ==================================================================== standing

variable {i : Nat}

/-- What stands after one more call stood before and was not dropped, or was added
just now. -/
theorem standing_concat_iff : Standing same limit (calls ++ [call]) i entry
    ↔ (Standing same limit calls i entry ∧ ∀ keep, call = .retain keep → keep entry = true)
      ∨ (i = calls.length ∧ call = .install entry
        ∧ ((after same limit calls).install same entry).1 = .added) := by
  constructor
  · intro standing
    rcases getElem?_concat_cases standing.call_eq with old | ⟨rfl, rfl⟩
    · have hi := (List.getElem?_eq_some_iff.mp old).1
      refine .inl ⟨⟨old, ?_, ?_⟩, ?_⟩
      · have added := standing.added
        rw [List.take_append_of_le_length (Nat.le_of_lt hi)] at added
        exact added
      · intro j keep hij hj
        exact standing.kept j keep hij (getElem?_of_longer (List.prefix_append _ _) hj)
      · rintro keep rfl
        exact standing.kept calls.length keep hi List.getElem?_concat_length
    · refine .inr ⟨rfl, rfl, ?_⟩
      have added := standing.added
      rw [List.take_left] at added
      exact added
  · intro h
    rcases h with ⟨standing, kept⟩ | ⟨rfl, rfl, added⟩
    · have hi := (List.getElem?_eq_some_iff.mp standing.call_eq).1
      constructor
      · exact getElem?_of_longer (List.prefix_append _ _) standing.call_eq
      · rw [List.take_append_of_le_length (Nat.le_of_lt hi)]
        exact standing.added
      · intro j keep hij hj
        rcases getElem?_concat_cases hj with old | ⟨-, hcall⟩
        · exact standing.kept j keep hij old
        · exact kept keep hcall.symm
    · constructor
      · exact List.getElem?_concat_length
      · rw [List.take_left]
        exact added
      · intro j keep hij hj
        have hj := (List.getElem?_eq_some_iff.mp hj).1
        simp only [List.length_append, List.length_singleton] at hj
        omega

/-- What stands, by the places of its calls, in their order. -/
structure Marks (same : ε → ε → Bool) (limit : Nat) (calls : List (Call.{u, v} ε))
    (marks : List (Nat × ε)) : Prop where
  increasing : marks.Pairwise (·.1 < ·.1)
  mem_iff : ∀ {i : Nat} {entry : ε}, (i, entry) ∈ marks ↔ Standing same limit calls i entry

variable {marks : List (Nat × ε)}

theorem Standing.lt_length (standing : Standing same limit calls i entry) : i < calls.length :=
  (List.getElem?_eq_some_iff.mp standing.call_eq).1

/-- A call that neither adds nor drops leaves standing what stands. -/
theorem Marks.keep (m : Marks same limit calls marks)
    (adds_none : ∀ entry, call = .install entry →
      ((after same limit calls).install same entry).1 ≠ .added)
    (drops_none : ∀ keep, call ≠ .retain keep) :
    Marks same limit (calls ++ [call]) marks where
  increasing := m.increasing
  mem_iff {i entry} := by
    rw [standing_concat_iff, m.mem_iff]
    constructor
    · intro standing
      exact .inl ⟨standing, fun keep h => absurd h (drops_none keep)⟩
    · intro h
      rcases h with ⟨standing, -⟩ | ⟨-, hcall, added⟩
      · exact standing
      · exact absurd added (adds_none entry hcall)

/-- What is added stands last. -/
theorem Marks.add (m : Marks same limit calls marks) (entry : ε)
    (added : ((after same limit calls).install same entry).1 = .added) :
    Marks same limit (calls ++ [.install entry]) (marks ++ [(calls.length, entry)]) where
  increasing := by
    refine List.pairwise_append.mpr ⟨m.increasing, List.pairwise_singleton _ _, ?_⟩
    intro a ha b hb
    rw [List.mem_singleton] at hb
    subst hb
    exact (m.mem_iff.mp ha).lt_length
  mem_iff {i other} := by
    rw [standing_concat_iff, List.mem_append, m.mem_iff, List.mem_singleton]
    simp only [reduceCtorEq, false_implies, implies_true, and_true, Prod.mk.injEq,
      Call.install.injEq]
    refine or_congr_right ⟨?_, ?_⟩
    · rintro ⟨rfl, rfl⟩
      exact ⟨rfl, rfl, added⟩
    · rintro ⟨rfl, rfl, -⟩
      exact ⟨rfl, rfl⟩

/-- What is dropped stands no more, and the rest stays in order. -/
theorem Marks.drop (m : Marks same limit calls marks) (keep : ε → Bool) :
    Marks same limit (calls ++ [.retain keep]) (marks.filter fun mark => keep mark.2) where
  increasing := m.increasing.filter _
  mem_iff {i entry} := by
    rw [standing_concat_iff, List.mem_filter, m.mem_iff]
    simp

/-- A chain that does not give up goes on holding what stands. -/
theorem Marks.perform (m : Marks same limit calls marks)
    (holds : (after same limit calls).entries = marks.map (·.2)) (call : Call.{u, v} ε)
    (going : ((after same limit calls).perform same call).megamorphic = false) :
    ∃ marks', Marks same limit (calls ++ [call]) marks'
      ∧ ((after same limit calls).perform same call).entries = marks'.map (·.2) := by
  cases call with
  | install entry =>
      have offer := (after same limit calls).offer_install same entry
      have kept : ((after same limit calls).install same entry).1 ≠ .added →
          Marks same limit (calls ++ [.install entry]) marks := by
        intro ne
        refine m.keep (fun other h => ?_) (by simp)
        cases h
        exact ne
      have added := m.add entry
      simp only [GuardChain.perform] at going ⊢
      generalize (after same limit calls).install same entry = result at offer going kept added ⊢
      cases offer with
      | abandoned given_up => simp [given_up] at going
      | held => exact ⟨marks, kept (by simp), holds⟩
      | full => cases going
      | room => exact ⟨_, added rfl, by simp [holds]⟩
  | retain keep =>
      refine ⟨_, m.drop keep, ?_⟩
      simp only [GuardChain.perform, GuardChain.retain, holds, List.filter_map]
      rfl
  | findMap probe => exact ⟨marks, m.keep (by simp) (by simp), holds⟩

/-- A chain that has not given up holds what stands, in the order of installation. -/
theorem exists_marks (going : (after same limit calls).megamorphic = false) :
    ∃ marks, Marks same limit calls marks
      ∧ (after same limit calls).entries = marks.map (·.2) := by
  induction calls using List.reverseRecOn with
  | nil =>
      refine ⟨[], ⟨List.Pairwise.nil, ?_⟩, rfl⟩
      intro i entry
      constructor
      · intro mem
        cases mem
      · intro standing
        exact absurd standing.lt_length (Nat.not_lt_zero i)
  | append_singleton calls call ih =>
      rw [after_concat] at going ⊢
      have before : (after same limit calls).megamorphic = false := by
        by_contra h
        rw [Bool.not_eq_false] at h
        rw [megamorphic_perform_iff.mpr (.inl h)] at going
        cases going
      obtain ⟨marks, m, holds⟩ := ih before
      exact m.perform holds call going

theorem mem_entries_iff (going : (after same limit calls).megamorphic = false) :
    entry ∈ (after same limit calls).entries ↔ ∃ i, Standing same limit calls i entry := by
  obtain ⟨marks, m, holds⟩ := exists_marks going
  simp [holds, m.mem_iff]

/-- The first hit among what stands in order is the first in the order of
installation. -/
theorem Marks.findSome?_iff (m : Marks same limit calls marks) {probe : ε → Option ρ} {hit : ρ} :
    (marks.map (·.2)).findSome? probe = some hit
      ↔ ∃ i entry, Standing same limit calls i entry ∧ probe entry = some hit
        ∧ ∀ j earlier, j < i → Standing same limit calls j earlier → probe earlier = none := by
  rw [List.findSome?_map, List.findSome?_eq_some_iff]
  constructor
  · intro h
    obtain ⟨before, ⟨i, entry⟩, later, rfl, hhit, hnone⟩ := h
    refine ⟨i, entry, m.mem_iff.mp (by simp), hhit, fun j earlier lt standing => ?_⟩
    have mem := m.mem_iff.mpr standing
    have increasing := List.pairwise_append.mp m.increasing
    rcases List.mem_append.mp mem with hbefore | hlater
    · exact hnone _ hbefore
    · -- what comes from there on is not earlier
      rcases List.mem_cons.mp hlater with heq | hlater
      · obtain ⟨rfl, -⟩ := Prod.mk.inj heq
        exact absurd lt (Nat.lt_irrefl _)
      · have gt := (List.pairwise_cons.mp increasing.2.1).1 _ hlater
        exact absurd lt (Nat.lt_asymm gt)
  · intro h
    obtain ⟨i, entry, standing, hhit, hnone⟩ := h
    obtain ⟨before, later, rfl⟩ := List.append_of_mem (m.mem_iff.mpr standing)
    refine ⟨before, (i, entry), later, rfl, hhit, fun mark mem => ?_⟩
    have lt := (List.pairwise_append.mp m.increasing).2.2 mark mem _ List.mem_cons_self
    exact hnone mark.1 mark.2 lt (m.mem_iff.mp (List.mem_append_left _ mem))

theorem findMap?_iff (going : (after same limit calls).megamorphic = false)
    {probe : ε → Option ρ} {hit : ρ} :
    (after same limit calls).findMap? probe = some hit
      ↔ ∃ i entry, Standing same limit calls i entry ∧ probe entry = some hit
        ∧ ∀ j earlier, j < i → Standing same limit calls j earlier → probe earlier = none := by
  obtain ⟨marks, m, holds⟩ := exists_marks going
  unfold findMap?
  rw [if_neg (by simp [going]), holds]
  exact m.findSome?_iff

-- ==================================================================== any calls

/-- What any chain holds and answers after any calls, if to be the same is an
equivalence. -/
theorem keeps_of_equivalence (equivalence : Equivalence fun a b => same a b = true)
    (limit : Nat) (calls : List (Call.{u, v} ε)) : Keeps same limit calls where
  length_le := (wellFormed_after calls).length_le
  distinct := (wellFormed_after calls).distinct equivalence.symm
  present_iff _ := (wellFormed_after calls).present_iff
  megamorphic_iff _ := (wellFormed_after calls).megamorphic_iff
  added_iff _ := (wellFormed_after calls).added_iff
  gave_up_iff := gave_up_iff
  for_good given_up more := by
    have abandoned := (abandoned_after given_up).after more
    exact ⟨abandoned, fun _ probe => abandoned.findMap?_eq probe⟩
  mem_iff going _ := mem_entries_iff going
  finds_iff going _ _ _ := findMap?_iff going

/-- Room that became free is used again, and what comes back is the youngest. -/
theorem keeps_of_equivalence_back :
    Equivalence (fun a b : Nat => (a == b) = true)
      ∧ Keeps.{0, 0} (· == ·) 2 [.install 7, .install 8, .retain (· != 7), .findMap some,
          .install 7]
      ∧ (after.{0, 0} (· == ·) 2 [.install 7, .install 8, .retain (· != 7), .findMap some,
          .install 7]).findMap? (fun e : Nat => some e) = some 8 :=
  have equivalence : Equivalence (fun a b : Nat => (a == b) = true) :=
    ⟨fun _ => beq_self_eq_true _, BEq.symm, BEq.trans⟩
  ⟨equivalence, keeps_of_equivalence equivalence 2 _, rfl⟩

end ObjectModel.GuardChain
