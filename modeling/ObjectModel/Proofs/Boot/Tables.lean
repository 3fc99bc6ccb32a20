/-
What a start leaves of the core types.

Once the primitives are installed, a start defines the classes of the error
numbers, binds constants and names the main object. None of this touches what
the types that are there mix in and define: new types come with tables of their
own, constants are no methods, and the two methods of the main object go to its
singleton type, which is newer than all of them. So a machine that has started
finds what the primitives put in the tables of the core types
(`keeps_start`).
-/
import ObjectModel.Proofs.Boot.Start
import ObjectModel.Proofs.Registry.Epoch
import ObjectModel.Proofs.Registry.Mirror

namespace ObjectModel

open Registry

variable {base r r' : Registry} {m m' : Machine}

namespace Registry.Keeps

theorem setConstant (keeps : Keeps base r) (owner : TypeId) (name : String) (v : Value) :
    Keeps base (r.setConstant owner name v) :=
  keeps.trans (.of_epoch (.setConstant r owner name v) (epoch_setConstant r owner name v))

theorem allocObject (keeps : Keeps base r) (t : TypeId) (payload : Payload) :
    Keeps base (r.allocObject t payload).2 :=
  keeps.trans (.of_epoch (.allocObject r t payload) rfl)

end Registry.Keeps

/-- A plain object without a singleton type gets one below its class. -/
theorem Registry.singletonOf_of_plain {o : ObjectId} (free : (r.cell o).singleton = none)
    (plain : r.denotes? o = none) :
    r.singletonOf o = r.attachSingleton o (r.cell o).logicalType := by
  unfold singletonOf singletonWithin
  rw [free, plain]

/-- The classes of the error numbers leave all tables alone. -/
theorem ErrnoTable.keeps_define {config : NativeConfiguration} {t : ErrnoTable}
    (h : define r config = .ok (t, r')) : Keeps r r' := by
  refine foldlM_keeps (P := fun state : ErrnoTable × Registry => Keeps r state.2) _ ?_ (.refl r) h
  rintro ⟨name, number⟩ - ⟨t₁, r₁⟩ ⟨t₂, r₂⟩ keeps hstep
  unfold add at hstep
  dsimp only at hstep
  split at hstep
  · cases hstep
    exact keeps.setConstant _ _ _
  · split at hstep
    · cases hstep
    · next cls r₃ hdef =>
      cases hstep
      have hdefined : Keeps r₁ r₃ :=
        .of_epoch (.defineClassUnder hdef) (epoch_of_defineClassUnder hdef)
      exact (keeps.trans hdefined).setConstant cls "Errno" (.fixnum number)

/-- Nor do they make a singleton type. -/
theorem ErrnoTable.sameSingletons_define {config : NativeConfiguration} {t : ErrnoTable}
    (h : define r config = .ok (t, r')) : SameSingletons r r' := by
  refine foldlM_keeps (P := fun state : ErrnoTable × Registry => SameSingletons r state.2) _ ?_
    (.refl r) h
  rintro ⟨name, number⟩ - ⟨t₁, r₁⟩ ⟨t₂, r₂⟩ same hstep
  unfold add at hstep
  dsimp only at hstep
  split at hstep
  · cases hstep
    exact same.trans (.setConstant r₁ _ _ _)
  · split at hstep
    · cases hstep
    · next cls r₃ hdef =>
      cases hstep
      exact (same.trans (.defineClassUnder hdef)).trans (.setConstant r₃ cls "Errno" (.fixnum number))

namespace Machine

-- ============================================================ the main object

/-- The tables of a registry are kept, and the main object's singleton type is
newer than it. -/
structure MainNewer (base : Registry) (m : Machine) : Prop where
  keeps : Keeps base m.registry
  holds : m.registry.Holds m.mainObject
  plain : m.registry.denotes? m.mainObject = none
  newer : ∀ {s : TypeId}, (m.registry.cell m.mainObject).singleton = some s → ¬ base.Has s

namespace MainNewer

variable (newer : MainNewer base m)

include newer

/-- Growth that makes no singleton types and leaves the tables alone. -/
theorem of_sameSingletons (main : m'.mainObject = m.mainObject)
    (keeps : Keeps m.registry m'.registry) (same : SameSingletons m.registry m'.registry) :
    MainNewer base m' where
  keeps := newer.keeps.trans keeps
  holds := by
    rw [main]
    exact keeps.grows.holds newer.holds
  plain := by
    rw [main, keeps.grows.denotes?_eq newer.holds]
    exact newer.plain
  newer {s} h := by
    rw [main, same.singleton_eq] at h
    exact newer.newer h

theorem setConstant (owner : TypeId) (name : String) (v : Value) :
    MainNewer base (m.setConstant owner name v) :=
  newer.of_sameSingletons rfl ((Keeps.refl m.registry).setConstant owner name v)
    (.setConstant m.registry owner name v)

theorem setTextConstant (name text : String) : MainNewer base (m.setTextConstant name text) := by
  have hmade : MainNewer base (m.newString text).2 :=
    newer.of_sameSingletons rfl ((Keeps.refl m.registry).allocObject Core.string (.text text))
      (.allocObject m.registry Core.string (.text text))
  exact hmade.setConstant Core.object name _

/-- A method of the main object alone goes to its singleton type, old or new. -/
theorem defineSingletonMethod {name : String} {arity : Arity} {body : Body}
    (h : m.defineSingletonMethod (.object m.mainObject) name arity body = .ok m') :
    MainNewer base m' := by
  have hmade : MainNewer base { m with registry := (m.registry.singletonOf m.mainObject).2 }
      ∧ ¬ base.Has (m.registry.singletonOf m.mainObject).1 := by
    cases hs : (m.registry.cell m.mainObject).singleton with
    | some s =>
        rw [singletonOf_of_some hs]
        exact ⟨newer, newer.newer hs⟩
    | none =>
        have hnew : ¬ base.Has ⟨m.registry.size⟩ := Nat.not_lt_of_le newer.keeps.grows.size_le
        rw [singletonOf_of_plain hs newer.plain]
        generalize (m.registry.cell m.mainObject).logicalType = u
        have hgrows : Grows m.registry (m.registry.attachSingleton m.mainObject u).2 :=
          .attachSingleton hs
        have hself : ((m.registry.attachSingleton m.mainObject u).2.cell m.mainObject).singleton
            = some ⟨m.registry.size⟩ := singleton_attachSingleton_self m.registry newer.holds
        refine ⟨⟨newer.keeps.trans (.of_epoch hgrows rfl), hgrows.holds newer.holds, ?_, ?_⟩, hnew⟩
        · exact (hgrows.denotes?_eq newer.holds).trans newer.plain
        · intro s h
          rw [hself] at h
          cases h
          exact hnew
  obtain ⟨⟨keeps, holds, plain, hnewer⟩, hnew⟩ := hmade
  cases h
  exact ⟨keeps.defineMethod hnew name arity body, holds, plain, hnewer⟩

end MainNewer

-- =================================================================== the start

theorem keeps_withBootConstants (newer : MainNewer base m) (h : m.withBootConstants = .ok m') :
    Keeps base m'.registry := by
  obtain ⟨arity, name, m₁, hfirst, hsecond⟩ := exists_of_withBootConstants h
  have hconstants : MainNewer base m.withConstants :=
    (((((newer.setTextConstant _ _).setTextConstant _ _).setConstant _ _ _).setTextConstant
      _ _).setConstant _ _ _).setConstant _ _ _
  have hmain : m₁.mainObject = m.withConstants.mainObject := by
    cases hfirst
    rfl
  rw [← hmain] at hsecond
  exact ((hconstants.defineSingletonMethod hfirst).defineSingletonMethod hsecond).keeps

/-- The main object of a machine around a registry is plain and without a
singleton type. -/
theorem cell_main_around (o : Options) (path : String) (r : Registry) :
    (around o path r).registry.cell (around o path r).mainObject
      = ⟨Core.object, none, (r.record Core.object).shape, .plain⟩ := by
  have hne : (⟨r.heap.length⟩ : ObjectId)
      ≠ ⟨(r.allocObject Core.object .plain).2.heap.length⟩ := by
    rw [length_heap_allocObject, ne_eq, ObjectId.mk.injEq]
    omega
  exact (cell_allocObject_of_ne _ hne).trans (cell_allocObject_new r Core.object .plain)

/-- The main object of a machine around a registry is newer than the registry. -/
theorem mainNewer_around (o : Options) (path : String) (r : Registry) :
    MainNewer r (around o path r) where
  keeps := ((Keeps.refl r).allocObject Core.object .plain).allocObject Core.object .plain
  holds := (holds_allocObject _).mpr (.inl ((holds_allocObject r).mpr (.inr rfl)))
  plain := by
    unfold denotes?
    rw [cell_main_around]
  newer h := by
    rw [cell_main_around] at h
    cases h

theorem keeps_bootRegistry {config : NativeConfiguration} {t : ErrnoTable}
    (h : bootRegistry config = .ok (t, r)) :
    ∃ core, Core.registry = .ok core ∧ Keeps (Core.installPrimitives core) r := by
  obtain ⟨core, hcore, h⟩ := exists_of_bind_eq_ok h
  obtain ⟨⟨t₁, r₁⟩, hdefine, h⟩ := exists_of_bind_eq_ok h
  obtain ⟨_, _, h⟩ := exists_of_bind_eq_ok h
  cases h
  exact ⟨core, hcore, ErrnoTable.keeps_define hdefine⟩

/-- In a started machine the core types mix in and define what the primitives
left. -/
theorem keeps_start {o : Options} {config : NativeConfiguration} {files : FileTree}
    (h : start o config files = .ok m) :
    ∃ core, Core.registry = .ok core ∧ Keeps (Core.installPrimitives core) m.registry := by
  obtain ⟨path, errno, r, patches, hboot, hconstants⟩ := exists_of_start h
  obtain ⟨core, hcore, keeps⟩ := keeps_bootRegistry hboot
  have hmain := mainNewer_around o path r
  refine ⟨core, hcore, keeps.trans (keeps_withBootConstants ⟨?_, ?_, ?_, ?_⟩ hconstants)⟩
  · exact hmain.keeps
  · exact hmain.holds
  · exact hmain.plain
  · exact hmain.newer

end Machine

end ObjectModel
