/-
What a thread reads is what it wrote.

A record keeps a copy of each variable for every thread, the copy of the thread
that made it apart from the others. Both kinds of copy follow one rule
(`SpecialRecord.read_write`): a write changes what the writing thread reads in
the written variable, and nothing else. Code between two accesses makes records,
but puts nothing into them (`read_record_act`), and reads nothing out of them:
two scopes that differ in what their records hold go on alike (`Alike.act`).

So what a thread reads is the last value that it wrote there itself
(`read_performAll`), and all that it reads stays the same if the accesses of the
other threads are left out (`Seems.readings`). Which thread made the record
plays no part.
-/
import Mathlib.Data.List.Induction
import ObjectModel.Proofs.Places
import ObjectModel.Scope.Access

namespace ObjectModel

-- ============================================================ one variable

namespace ThreadLocal

theorem read_fresh (owner t : ThreadId) : (fresh owner).read t = .nil := by
  unfold read fresh
  split <;> rfl

/-- Copies of other threads do not matter when a thread looks for its own. -/
theorem lookup_others {t u : ThreadId} (ne : t ≠ u) (others : List (ThreadId × Value)) :
    (others.filter (·.1 ≠ u)).lookup t = others.lookup t := by
  induction others with
  | nil => rfl
  | cons copy others ih =>
      obtain ⟨w, v⟩ := copy
      by_cases hw : w = u
      · subst hw
        have hne : (t == w) = false := beq_false_of_ne ne
        rw [List.filter_cons_of_neg (by simp), ih, List.lookup_cons, hne]
      · rw [List.filter_cons_of_pos (by simpa using hw), List.lookup_cons, List.lookup_cons, ih]

/-- A write changes the copy of its thread only. -/
theorem read_write (x : ThreadLocal) (u t : ThreadId) (v : Value) :
    (x.write u v).read t = if u = t then v else x.read t := by
  unfold write
  split
  · next hu =>
    -- the copy of the owner
    subst hu
    unfold read
    by_cases ht : t = x.owner
    · rw [if_pos ht, if_pos ht.symm]
    · rw [if_neg ht, if_neg (Ne.symm ht), if_neg ht]
  · next hu =>
    unfold read
    dsimp only
    by_cases hut : u = t
    · subst hut
      rw [if_neg hu, if_pos rfl, List.lookup_cons_self, Option.getD_some]
    · have hne : (t == u) = false := beq_false_of_ne (Ne.symm hut)
      rw [if_neg hut, List.lookup_cons, hne]
      dsimp only
      rw [lookup_others (Ne.symm hut)]

end ThreadLocal

namespace SpecialRecord

theorem read_fresh (owner : ThreadId) (x : SpecialVariable) (t : ThreadId) :
    (fresh owner).read x t = .nil := by
  cases x <;> exact ThreadLocal.read_fresh owner t

theorem read_default (x : SpecialVariable) (t : ThreadId) :
    (default : SpecialRecord).read x t = .nil := by
  cases x <;> exact ThreadLocal.read_fresh default t

/-- A write changes what its thread reads in its variable, and nothing else. -/
theorem read_write (s : SpecialRecord) (y x : SpecialVariable) (u t : ThreadId) (v : Value) :
    (s.write y u v).read x t = if u = t ∧ y = x then v else s.read x t := by
  cases y <;> cases x <;> simp [write, read, ThreadLocal.read_write]

end SpecialRecord

-- ================================================================= records

namespace Activations

variable {a a' : Activations} {f : FrameId}

/-- Every thread reads nil where there is no record. -/
theorem read_record_of_not_has {r : RecordId} (h : ¬ a.HasRecord r) (x : SpecialVariable)
    (t : ThreadId) : (a.record r).read x t = .nil := by
  unfold record
  rw [List.getD_eq_getElem?_getD, List.getElem?_eq_none (Nat.le_of_not_lt h), Option.getD_none,
    SpecialRecord.read_default]

/-- A thread that writes changes what it reads in that variable of that record. -/
theorem read_record_write (a : Activations) (r q : RecordId) (y x : SpecialVariable)
    (u t : ThreadId) (v : Value) :
    ((a.modifyRecord r fun record => record.write y u v).record q).read x t
      = if a.HasRecord r ∧ u = t ∧ r = q ∧ y = x then v else (a.record q).read x t := by
  have hrecord : (a.modifyRecord r fun record => record.write y u v).record q
      = if q = r ∧ a.HasRecord r then (a.record r).write y u v else a.record q := by
    obtain ⟨i⟩ := r
    obtain ⟨j⟩ := q
    simp only [RecordId.mk.injEq]
    exact getD_modify ..
  rw [hrecord]
  split
  · next h =>
    obtain ⟨rfl, has⟩ := h
    rw [SpecialRecord.read_write]
    simp only [has, true_and]
  · next h => exact (if_neg fun all => h ⟨all.2.2.1.symm, all.1⟩).symm

/-- A record that is made is empty. -/
theorem read_record_materialize (a : Activations) (f : FrameId) (u : ThreadId) (r : RecordId)
    (x : SpecialVariable) (t : ThreadId) :
    ((a.materialize f u).2.record r).read x t = (a.record r).read x t := by
  unfold materialize
  split
  · rfl
  · obtain ⟨i⟩ := r
    unfold record
    dsimp only
    by_cases hi : i = a.records.length
    · subst hi
      have hfree := read_record_of_not_has (a := a) (r := ⟨a.records.length⟩)
        (Nat.lt_irrefl _) x t
      rw [getD_concat_self, SpecialRecord.read_fresh]
      exact hfree.symm
    · rw [getD_concat_of_ne _ _ _ hi]

theorem records_walk (fuel : Nat) (a : Activations) (f : FrameId) :
    (walk fuel a f).2.2.records = a.records := by
  induction fuel generalizing f with
  | zero => rfl
  | succ fuel ih =>
      unfold walk
      dsimp only
      split
      · rfl
      · rfl
      · next next _ _ => exact ih next

theorem read_record_locate (a : Activations) (f : FrameId) (u : ThreadId) (r : RecordId)
    (x : SpecialVariable) (t : ThreadId) :
    ((a.locate f u).2.2.record r).read x t = (a.record r).read x t := by
  unfold locate
  dsimp only
  rw [read_record_materialize]
  unfold record
  rw [records_walk]

theorem read_record_storageOf_site (a : Activations) (site : StorageSite) (f : FrameId)
    (u : ThreadId) (r : RecordId) (x : SpecialVariable) (t : ThreadId) :
    ((site.storageOf a f u).2.2.record r).read x t = (a.record r).read x t := by
  have hwalked : ((a.storageOf f u).2.record r).read x t = (a.record r).read x t :=
    read_record_locate a f u r x t
  unfold StorageSite.storageOf
  split
  · exact hwalked
  · split
    · exact hwalked
    · split
      · exact read_record_materialize ..
      · dsimp only
        split
        · exact hwalked
        · exact hwalked

/-- Activations that differ in what their records hold, at most. -/
structure Alike (a a' : Activations) : Prop where
  layouts : a'.layouts = a.layouts
  frames : a'.frames = a.frames
  records : a'.records.length = a.records.length

namespace Alike

variable (alike : Alike a a')

include alike

theorem frame_eq (f : FrameId) : a'.frame f = a.frame f := by
  unfold frame
  rw [alike.frames]

theorem layout_eq (l : LayoutId) : a'.layout l = a.layout l := by
  unfold layout
  rw [alike.layouts]

theorem modifyLayout (l : LayoutId) (change : FrameLayout → FrameLayout) :
    Alike (a.modifyLayout l change) (a'.modifyLayout l change) :=
  ⟨congrArg (·.modify l.index change) alike.layouts, alike.frames, alike.records⟩

/-- A walk looks at no record. -/
theorem of_walk (fuel : Nat) (f : FrameId) :
    (walk fuel a' f).1 = (walk fuel a f).1 ∧ (walk fuel a' f).2.1 = (walk fuel a f).2.1
      ∧ Alike (walk fuel a f).2.2 (walk fuel a' f).2.2 := by
  induction fuel generalizing f with
  | zero => exact ⟨rfl, rfl, alike⟩
  | succ fuel ih =>
      unfold walk
      dsimp only
      rw [alike.frame_eq, alike.layout_eq]
      split
      · exact ⟨rfl, rfl, alike⟩
      · have hmodified := alike.modifyLayout (a.frame f).layout .registerSpecial
        exact ⟨rfl, by rw [hmodified.layout_eq], hmodified⟩
      · next next _ _ =>
        obtain ⟨howner, hpath, halike⟩ := ih next
        exact ⟨howner, congrArg (List.cons _) hpath, halike⟩

theorem materialize (f : FrameId) (t : ThreadId) :
    (a'.materialize f t).1 = (a.materialize f t).1
      ∧ Alike (a.materialize f t).2 (a'.materialize f t).2 := by
  unfold Activations.materialize
  rw [alike.frame_eq]
  split
  · exact ⟨rfl, alike⟩
  · refine ⟨congrArg RecordId.mk alike.records, alike.layouts, ?_, ?_⟩
    · rw [alike.records, alike.frames]
    · rw [List.length_append, List.length_append, alike.records]

theorem locate (f : FrameId) (t : ThreadId) :
    (a'.locate f t).1 = (a.locate f t).1 ∧ (a'.locate f t).2.1 = (a.locate f t).2.1
      ∧ Alike (a.locate f t).2.2 (a'.locate f t).2.2 := by
  obtain ⟨howner, hpath, halike⟩ := alike.of_walk (a.frames.length + 1) f
  unfold Activations.locate
  rw [alike.frames]
  dsimp only
  rw [howner]
  obtain ⟨hrecord, hafter⟩ := halike.materialize (walk (a.frames.length + 1) a f).1 t
  exact ⟨hrecord, hpath, hafter⟩

theorem replay_eq (f : FrameId) (path : Path) :
    StorageSite.replay a' f path = StorageSite.replay a f path := by
  induction path generalizing f with
  | nil => rfl
  | cons entry rest ih =>
      obtain ⟨l, version⟩ := entry
      unfold StorageSite.replay
      rw [alike.frame_eq, alike.layout_eq]
      cases rest with
      | nil => rfl
      | cons e rest =>
          have hrest : (StorageSite.replay a' · (e :: rest))
              = (StorageSite.replay a · (e :: rest)) := funext ih
          dsimp only
          rw [hrest]

theorem relearn (site : StorageSite) (f : FrameId) (t : ThreadId) :
    (site.relearn a' f t).2.1 = (site.relearn a f t).2.1
      ∧ Alike (site.relearn a f t).2.2 (site.relearn a' f t).2.2 := by
  obtain ⟨-, hpath, halike⟩ := alike.locate f t
  unfold StorageSite.relearn
  dsimp only
  rw [hpath]
  exact ⟨rfl, halike⟩

/-- Nor does a site look at records. -/
theorem storageOf_site (site : StorageSite) (f : FrameId) (t : ThreadId) :
    (site.storageOf a' f t).2.1 = (site.storageOf a f t).2.1
      ∧ Alike (site.storageOf a f t).2.2 (site.storageOf a' f t).2.2 := by
  have hwalked : Alike (a.storageOf f t).2 (a'.storageOf f t).2 := (alike.locate f t).2.2
  unfold StorageSite.storageOf
  split
  · exact ⟨rfl, hwalked⟩
  · split
    · exact alike.relearn site f t
    · next path _ =>
      rw [alike.replay_eq]
      split
      · next owner _ => exact ⟨rfl, (alike.materialize owner t).2⟩
      · dsimp only
        split
        · exact ⟨rfl, hwalked⟩
        · exact alike.relearn _ f t

end Alike

end Activations

-- =============================================================== one action

namespace Scope

variable {s s' : Scope} {t : ThreadId} {steps : List Step}

/-- Code puts nothing into records. -/
theorem read_record_act (s : Scope) (y : Action) (r : RecordId) (x : SpecialVariable)
    (t : ThreadId) :
    ((s.act y).activations.record r).read x t = (s.activations.record r).read x t := by
  cases y with
  | addLayout name special => rfl
  | addFrame layout declaration => rfl
  | addSlot layout name => rfl
  | openSite limits => rfl
  | request f u => exact Activations.read_record_locate s.activations f u r x t
  | requestAt i f u =>
      unfold act
      dsimp only
      split
      · exact Activations.read_record_storageOf_site ..
      · rfl

/-- Scopes that differ in what their records hold, at most. -/
structure Alike (s s' : Scope) : Prop where
  activations : Activations.Alike s.activations s'.activations
  sites : s'.sites = s.sites

theorem Alike.symm (alike : Alike s s') : Alike s' s where
  activations :=
    ⟨alike.activations.layouts.symm, alike.activations.frames.symm,
      alike.activations.records.symm⟩
  sites := alike.sites.symm

theorem Alike.trans {s'' : Scope} (alike : Alike s s') (alike' : Alike s' s'') : Alike s s'' where
  activations :=
    ⟨alike'.activations.layouts.trans alike.activations.layouts,
      alike'.activations.frames.trans alike.activations.frames,
      alike'.activations.records.trans alike.activations.records⟩
  sites := alike'.sites.trans alike.sites

theorem alike_write (s : Scope) (t : ThreadId) (r : RecordId) (x : SpecialVariable) (v : Value) :
    Alike s (Step.perform s (.write t r x v)) :=
  ⟨⟨rfl, rfl, List.length_modify ..⟩, rfl⟩

/-- Code reads nothing out of records. -/
theorem Alike.act (alike : Alike s s') (y : Action) : Alike (s.act y) (s'.act y) := by
  obtain ⟨alike, sites⟩ := alike
  cases y with
  | addLayout name special =>
      exact ⟨⟨congrArg (· ++ _) alike.layouts, alike.frames, alike.records⟩, sites⟩
  | addFrame layout declaration =>
      exact ⟨⟨alike.layouts, congrArg (· ++ _) alike.frames, alike.records⟩, sites⟩
  | addSlot layout name => exact ⟨alike.modifyLayout layout _, sites⟩
  | openSite limits => exact ⟨alike, congrArg (· ++ _) sites⟩
  | request f u => exact ⟨(alike.locate f u).2.2, sites⟩
  | requestAt i f u =>
      unfold Scope.act
      dsimp only
      rw [sites]
      split
      · next site _ =>
        obtain ⟨hsite, hafter⟩ := alike.storageOf_site site f u
        exact ⟨hafter, by rw [hsite]⟩
      · exact ⟨alike, sites⟩

-- ================================================================ one thread

/-- What a thread reads after a step: the value that it just wrote, or what it
read before. -/
theorem read_record_perform {step : Step} (valid : step.Valid s) (t : ThreadId) (r : RecordId)
    (x : SpecialVariable) :
    ((step.perform s).activations.record r).read x t
      = (step.written? t r x).getD ((s.activations.record r).read x t) := by
  cases step with
  | act y => exact read_record_act s y r x t
  | read u q y => rfl
  | write u q y v =>
      have has : s.activations.HasRecord q := valid
      refine (Activations.read_record_write s.activations q r y x u t v).trans ?_
      unfold Step.written?
      dsimp only
      by_cases h : u = t ∧ q = r ∧ y = x
      · rw [if_pos ⟨has, h⟩, if_pos h, Option.getD_some]
      · rw [if_neg fun all => h all.2, if_neg h, Option.getD_none]

theorem lastWritten_concat (t : ThreadId) (r : RecordId) (x : SpecialVariable)
    (steps : List Step) (step : Step) :
    lastWritten t r x (steps ++ [step]) = (step.written? t r x).or (lastWritten t r x steps) := by
  unfold lastWritten
  rw [List.filterMap_append, List.getLast?_append]
  cases hstep : step.written? t r x with
  | none => rw [List.filterMap_cons_none hstep, List.filterMap_nil, List.getLast?_nil]
  | some v => rw [List.filterMap_cons_some hstep, List.filterMap_nil, List.getLast?_singleton]

/-- What a thread reads is what it wrote last. -/
theorem read_performAll {before : List Step}
    (valid : ObjectModel.Along Step.perform Step.Valid .empty before) (t : ThreadId)
    (r : RecordId) (x : SpecialVariable) :
    ((performAll .empty before).activations.record r).read x t
      = (lastWritten t r x before).getD .nil := by
  induction before using List.reverseRecOn with
  | nil => exact SpecialRecord.read_default x t
  | append_singleton before step ih =>
      obtain ⟨hbefore, hlast, -⟩ := Along.append_iff.mp valid
      have hstep : step.Valid (performAll .empty before) := hlast
      have hstate : performAll .empty (before ++ [step])
          = step.perform (performAll .empty before) := by
        unfold performAll
        rw [List.foldl_append]
        rfl
      rw [hstate, read_record_perform hstep, ih hbefore, lastWritten_concat]
      cases step.written? t r x <;> rfl

-- ============================================================ the other threads

/-- Scopes that a thread cannot tell apart by what it reads, nor by what code
does. -/
structure Seems (t : ThreadId) (s s' : Scope) : Prop extends Alike s s' where
  reading : ∀ (r : RecordId) (x : SpecialVariable),
    (s'.activations.record r).read x t = (s.activations.record r).read x t

namespace Seems

theorem refl (t : ThreadId) (s : Scope) : Seems t s s :=
  ⟨⟨⟨rfl, rfl, rfl⟩, rfl⟩, fun _ _ => rfl⟩

variable (seems : Seems t s s')

include seems

/-- The same step shows the thread no difference. -/
theorem perform (step : Step) : Seems t (step.perform s) (step.perform s') := by
  cases step with
  | act y =>
      refine ⟨seems.toAlike.act y, fun r x => ?_⟩
      exact (read_record_act s' y r x t).trans
        ((seems.reading r x).trans (read_record_act s y r x t).symm)
  | read u r x => exact seems
  | write u r y v =>
      have hhas : s'.activations.HasRecord r ↔ s.activations.HasRecord r := by
        unfold Activations.HasRecord
        rw [seems.activations.records]
      refine ⟨(alike_write s u r y v).symm.trans (seems.toAlike.trans (alike_write s' u r y v)),
        fun q x => ?_⟩
      calc (((Step.write u r y v).perform s').activations.record q).read x t
          = if s'.activations.HasRecord r ∧ u = t ∧ r = q ∧ y = x then v
              else (s'.activations.record q).read x t := Activations.read_record_write ..
        _ = if s.activations.HasRecord r ∧ u = t ∧ r = q ∧ y = x then v
              else (s.activations.record q).read x t :=
          if_congr (and_congr_left' hhas) rfl (seems.reading q x)
        _ = (((Step.write u r y v).perform s).activations.record q).read x t :=
          (Activations.read_record_write ..).symm

/-- An access of another thread shows it none if it is left out. -/
theorem leave {step : Step} (other : step.byOther t = true) : Seems t (step.perform s) s' := by
  cases step with
  | act y => cases other
  | read u r x => exact seems
  | write u r y v =>
      have hne : u ≠ t := of_decide_eq_true other
      refine ⟨(alike_write s u r y v).symm.trans seems.toAlike, fun q x => ?_⟩
      rw [seems.reading]
      refine (Eq.trans (Activations.read_record_write s.activations r q y x u t v) ?_).symm
      exact if_neg fun all => hne all.2.1

theorem reading?_eq (step : Step) : step.reading? t s' = step.reading? t s := by
  cases step with
  | act y => rfl
  | read u r x =>
      unfold Step.reading?
      dsimp only
      rw [seems.reading]
  | write u r y v => rfl

end Seems

theorem reading?_byOther {step : Step} (other : step.byOther t = true) :
    step.reading? t s = none := by
  cases step with
  | act y => rfl
  | read u r x => exact if_neg (of_decide_eq_true other)
  | write u r y v => rfl

theorem readings_cons (t : ThreadId) (s : Scope) (step : Step) (steps : List Step) :
    readings t s (step :: steps)
      = (step.reading? t s).toList ++ readings t (step.perform s) steps := rfl

/-- Without the accesses of other threads a thread reads the same. -/
theorem Seems.readings (seems : Seems t s s') (steps : List Step) :
    Scope.readings t s' (steps.filter fun step => !step.byOther t)
      = Scope.readings t s steps := by
  induction steps generalizing s s' with
  | nil => rfl
  | cons step steps ih =>
      cases other : step.byOther t with
      | true =>
          rw [List.filter_cons_of_neg (by rw [other]; decide), ih (seems.leave other),
            readings_cons, reading?_byOther other]
          rfl
      | false =>
          rw [List.filter_cons_of_pos (by rw [other]; decide), readings_cons, readings_cons,
            seems.reading?_eq, ih (seems.perform step)]

-- ================================================================== a whole run

/-- In a run, what a thread reads depends on its own accesses only. -/
structure Isolated (steps : List Step) (t : ThreadId) : Prop where
  /-- It reads the last value that it wrote itself to that variable of that
  record, nil if it wrote none. -/
  own : ∀ {before : List Step} {r : RecordId} {x : SpecialVariable},
    before ++ [.read t r x] <+: steps →
      (Step.read t r x).reading? t (performAll .empty before)
        = some ((lastWritten t r x before).getD .nil)
  /-- It reads the same if the accesses of all other threads are left out. -/
  alone : readings t .empty (steps.filter fun step => !step.byOther t)
    = readings t .empty steps

/-- Threads are isolated from each other in every run, whichever thread makes
the records. -/
theorem isolated_of_run (valid : ObjectModel.Along Step.perform Step.Valid .empty steps)
    (t : ThreadId) : Isolated steps t where
  own {before r x} part := by
    obtain ⟨rest, rfl⟩ := part
    have hbefore := (Along.append_iff.mp (Along.append_iff.mp valid).1).1
    rw [← read_performAll hbefore]
    exact if_pos rfl
  alone := (Seems.refl t .empty).readings steps

/-- A thread makes the record of a method. Another one and it match and read in
turns, in the method and in its block, and a third one only reads. -/
def threeThreads : List Step :=
  [.act (.addLayout "method" false), .act (.addLayout "block" false),
    .act (.addFrame ⟨0⟩ none), .act (.addFrame ⟨1⟩ (some ⟨0⟩)),
    .act (.request ⟨1⟩ ⟨1⟩), .write ⟨2⟩ ⟨0⟩ .lastMatch (.bool true),
    .read ⟨1⟩ ⟨0⟩ .lastMatch, .write ⟨1⟩ ⟨0⟩ .lastMatch (.bool false),
    .act (.request ⟨0⟩ ⟨2⟩), .read ⟨2⟩ ⟨0⟩ .lastMatch, .read ⟨2⟩ ⟨0⟩ .lastLine,
    .read ⟨3⟩ ⟨0⟩ .lastMatch, .read ⟨1⟩ ⟨0⟩ .lastMatch]

/-- The thread that made the record reads its own values, and so do the others. -/
theorem isolated_of_threeThreads :
    ObjectModel.Along Step.perform Step.Valid .empty threeThreads
      ∧ readings ⟨1⟩ .empty threeThreads = [.nil, .bool false]
      ∧ readings ⟨2⟩ .empty threeThreads = [.bool true, .nil]
      ∧ readings ⟨3⟩ .empty threeThreads = [.nil]
      ∧ ∀ t, Isolated threeThreads t := by
  have valid : ObjectModel.Along Step.perform Step.Valid .empty threeThreads := by decide
  exact ⟨valid, by decide, by decide, by decide, isolated_of_run valid⟩

end Scope

end ObjectModel
