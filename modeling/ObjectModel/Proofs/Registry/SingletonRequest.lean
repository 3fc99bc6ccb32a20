/-
What a request for a singleton type does.

The singleton type of a class rests on those of all types above it, so a
request goes up the chain of superclasses, and makes on its way back what was
lacking. By the mirror, a class with a singleton type has types with singleton
types above it; what lacks one is therefore the lower end of the chain, and the
request makes singleton types for exactly the objects of that end, from the top
down (`attaches_singletonWithin`). What such a row of new
types leaves as it was is said once, for any row (`Attaches.attached`).
-/
import ObjectModel.Proofs.Registry.Chain
import ObjectModel.Proofs.Registry.Singletons

namespace ObjectModel.Registry

variable {r r' : Registry}

-- ============================================================ rows of new types

/-- Singleton types were attached to objects, in this order. None of the
objects had one, and each new type is below the superclass that its object
asked for. -/
inductive Attaches (r : Registry) : List ObjectId → Registry → Prop
  | nil : Attaches r [] r
  | snoc {r' : Registry} {os : List ObjectId} {o : ObjectId} {u : TypeId} :
      Attaches r os r' → r'.Holds o → (r'.cell o).singleton = none →
      r'.singletonSuper? o = some u → Attaches r (os ++ [o]) (r'.attachSingleton o u).2

/-- There are new singleton types for these objects, in this order, and
nothing else has changed. -/
structure Attached (r : Registry) (os : List ObjectId) (r' : Registry) : Prop where
  size_eq : r'.size = r.size + os.length
  length_heap_eq : r'.heap.length = r.heap.length + os.length
  epoch_eq : r'.epoch = r.epoch
  shapes_eq : r'.shapes = r.shapes
  record_old : ∀ {t : TypeId}, r.Has t → r'.record t = r.record t
  cell_old : ∀ {p : ObjectId}, r.Holds p →
    r'.cell p = { r.cell p with singleton := (r'.cell p).singleton }
  singleton_kept : ∀ {p : ObjectId}, p ∉ os → (r'.cell p).singleton = (r.cell p).singleton
  /-- A new type is attached to its object, and empty. -/
  record_new : ∀ {i : Nat} {o : ObjectId}, os[i]? = some o →
    (r'.record ⟨r.size + i⟩).attached = some o ∧ (r'.record ⟨r.size + i⟩).includes = []
      ∧ (r'.record ⟨r.size + i⟩).methods = .empty ∧ (r'.record ⟨r.size + i⟩).constants = .empty

theorem Attached.nil (r : Registry) : Attached r [] r where
  size_eq := rfl
  length_heap_eq := rfl
  epoch_eq := rfl
  shapes_eq := rfl
  record_old _ := rfl
  cell_old _ := rfl
  singleton_kept _ := rfl
  record_new h := by cases h

/-- One more singleton type. -/
theorem Attached.snoc {os : List ObjectId} {o : ObjectId} (u : TypeId)
    (attached : Attached r os r') : Attached r (os ++ [o]) (r'.attachSingleton o u).2 where
  size_eq := by
    rw [size_attachSingleton, attached.size_eq, List.length_append, List.length_singleton]
    omega
  length_heap_eq := by
    rw [length_heap_attachSingleton, attached.length_heap_eq, List.length_append,
      List.length_singleton]
    omega
  epoch_eq := attached.epoch_eq
  shapes_eq := attached.shapes_eq
  record_old {t} has := by
    have hlt : t.index < r'.size := by
      have := attached.size_eq
      unfold Has at has
      omega
    rw [record_attachSingleton_of_ne r' (ne_of_has r' hlt)]
    exact attached.record_old has
  cell_old {p} holds := by
    have hlt : r'.Holds p := by
      have := attached.length_heap_eq
      unfold Holds at *
      omega
    rw [cell_attachSingleton_of_holds r' hlt]
    have hold := attached.cell_old holds
    generalize r'.cell p = c at hold ⊢
    rw [hold]
  singleton_kept {p} fresh := by
    rw [List.mem_append, List.mem_singleton, not_or] at fresh
    rw [singleton_attachSingleton_of_ne r' u fresh.2]
    exact attached.singleton_kept fresh.1
  record_new {i} {p} h := by
    rcases Nat.lt_or_ge i os.length with hlt | hge
    · rw [List.getElem?_append_left hlt] at h
      have hne : (⟨r.size + i⟩ : TypeId) ≠ ⟨r'.size⟩ := by
        rw [attached.size_eq, ne_eq, TypeId.mk.injEq]
        omega
      rw [record_attachSingleton_of_ne r' hne]
      exact attached.record_new h
    · rw [List.getElem?_append_right hge] at h
      have hi : i = os.length := by
        have := (List.getElem?_eq_some_iff.mp h).1
        rw [List.length_singleton] at this
        omega
      subst hi
      rw [Nat.sub_self] at h
      cases h
      rw [← attached.size_eq, record_attachSingleton_new]
      exact ⟨rfl, rfl, rfl, rfl⟩

namespace Attaches

variable {os : List ObjectId}

/-- A row of new singleton types leaves the rest as it was. -/
theorem attached (row : Attaches r os r') : Attached r os r' := by
  induction row with
  | nil => exact .nil r
  | snoc _ _ _ _ ih => exact ih.snoc _

/-- A row of new singleton types keeps both invariants. -/
theorem keeps (wf : r.WellFormed) (mirrored : r.Mirrored) (row : Attaches r os r') :
    r'.WellFormed ∧ r'.Mirrored ∧ Grows r r' := by
  induction row with
  | nil => exact ⟨wf, mirrored, .refl r⟩
  | snoc _ holds free asked ih =>
      obtain ⟨hwf, hmirrored, hgrows⟩ := ih
      have has := has_of_singletonSuper? hwf holds asked
      exact ⟨(hwf.attachSingleton has).1, hmirrored.attachSingleton hwf holds free asked,
        hgrows.trans (.attachSingleton free)⟩

end Attaches

-- ================================================================== what lacks

/-- The objects of a list that have no singleton type. -/
def lacking (r : Registry) (objects : List ObjectId) : List ObjectId :=
  objects.filter fun o => (r.cell o).singleton.isNone

theorem lacking_cons_of_none {o : ObjectId} (objects : List ObjectId)
    (free : (r.cell o).singleton = none) :
    r.lacking (o :: objects) = o :: r.lacking objects := by
  unfold lacking
  rw [List.filter_cons_of_pos (by rw [free]; rfl)]

/-- The object of a type. -/
abbrev objectOf (r : Registry) (t : TypeId) : ObjectId := (r.record t).object

namespace Mirrored

variable (wf : r.WellFormed) (mirrored : r.Mirrored)

include wf mirrored

/-- A class with a singleton type is below a type with one. -/
theorem exists_singleton_super {t u s : TypeId} (super : (r.record t).superclass = some u)
    (h : (r.cell (r.objectOf t)).singleton = some s) :
    ∃ p, (r.cell (r.objectOf u)).singleton = some p ∧ (r.record s).superclass = some p := by
  obtain ⟨class_, -⟩ := wf.superclass_some super
  have has := has_of_superclass super
  obtain ⟨p, hasked, hsuper⟩ := mirrored.superclass_some (mirrored.singleton_iff.mp h)
  rw [singletonSuper?_of_class (wf.object_denotes has) class_ super] at hasked
  exact ⟨p, hasked, hsuper⟩

/-- Nothing lacks a singleton type above a type that has one. -/
theorem lacking_eq_nil : ∀ {chain : List TypeId} {t s : TypeId}, r.Ascends t chain →
    (r.cell (r.objectOf t)).singleton = some s → r.lacking (chain.map r.objectOf) = [] := by
  intro chain
  induction chain with
  | nil =>
      intro t s ascends _
      cases ascends.head
  | cons a rest ih =>
      intro t s ascends h
      obtain rfl : a = t := Option.some_inj.mp ascends.head
      have hhead : r.lacking (((a :: rest).map r.objectOf)) = r.lacking (rest.map r.objectOf) := by
        unfold lacking
        rw [List.map_cons, List.filter_cons_of_neg (by rw [h]; exact Bool.false_ne_true)]
      rw [hhead]
      rcases ascends.uncons with ⟨hchain, -⟩ | ⟨u, rest', hchain, super, above⟩
      · cases hchain
        rfl
      · cases hchain
        obtain ⟨p, hp, -⟩ := mirrored.exists_singleton_super wf super h
        exact ih above hp

end Mirrored

-- ================================================================ the recursion

/-- The recursion through the superclasses makes what lacks, from the top down. -/
theorem attaches_singletonWithin : ∀ (fuel : Nat) {r : Registry}, r.WellFormed → r.Mirrored →
    ∀ {t : TypeId} {chain : List TypeId}, r.Ascends t chain → chainRank t < fuel →
      Attaches r (r.lacking (chain.map r.objectOf)).reverse
          (singletonWithin fuel r (r.objectOf t)).2
        ∧ ((singletonWithin fuel r (r.objectOf t)).2.cell (r.objectOf t)).singleton
          = some (singletonWithin fuel r (r.objectOf t)).1 := by
  intro fuel
  induction fuel with
  | zero => intro r _ _ t chain _ hlt; exact absurd hlt (Nat.not_lt_zero _)
  | succ fuel ih =>
      intro r wf mirrored t chain ascends hlt
      have hmem : t ∈ chain := List.mem_of_mem_head? ascends.head
      have has := ascends.has t hmem
      have hdenotes := wf.object_denotes has
      have hholds := wf.object_holds has
      unfold singletonWithin
      split
      · next s hs =>
        rw [mirrored.lacking_eq_nil wf ascends hs]
        exact ⟨.nil, hs⟩
      · next free =>
        rw [hdenotes]
        dsimp only
        have hnone : Attaches r [] r := .nil
        rcases ascends.uncons with ⟨rfl, top⟩ | ⟨u, rest, rfl, super, above⟩
        · rw [top, List.map_singleton, lacking_cons_of_none [] free]
          cases kind : (r.record t).kind with
          | classType =>
              exact ⟨hnone.snoc hholds free (singletonSuper?_of_root hdenotes kind top),
                singleton_attachSingleton_self r hholds⟩
          | moduleType =>
              exact ⟨hnone.snoc hholds free (singletonSuper?_of_module hdenotes kind),
                singleton_attachSingleton_self r hholds⟩
        · obtain ⟨class_, hasu, hrank⟩ := wf.superclass_some super
          rw [class_, super]
          dsimp only
          obtain ⟨hrow, hmade⟩ := ih wf mirrored above (by omega)
          -- what was made above is for objects of lower rank, so `t`'s object is still free
          have hfree := (Grows.singleton_kept_of_rank_lt fuel wf hdenotes
            (wf.object_denotes hasu) hrank).trans free
          generalize singletonWithin fuel r (r.objectOf u) = made at *
          obtain ⟨s, r₁⟩ := made
          obtain ⟨hwf, -, hgrows⟩ := hrow.keeps wf mirrored
          have hholds₁ := hgrows.holds hholds
          have hsame := hgrows.identity has
          have hasked : r₁.singletonSuper? (r.objectOf t) = some s := by
            have hobject := hsame.object_eq
            have hdenotes₁ := hwf.object_denotes (hgrows.has has)
            rw [hobject] at hdenotes₁
            rw [singletonSuper?_of_class hdenotes₁ (hsame.kind_eq.trans class_)
              (hsame.superclass_eq.trans super), (hgrows.identity hasu).object_eq]
            exact hmade
          rw [List.map_cons, lacking_cons_of_none _ free, List.reverse_cons]
          exact ⟨hrow.snoc hholds₁ hfree hasked, singleton_attachSingleton_self r₁ hholds₁⟩

end ObjectModel.Registry
