/-
What objects find once a singleton type was made.

A new singleton type is empty, and looks on where its object's lookup started
before, unless the object is that of a class: then it looks on where lookup for
the superclass's object starts. So a request for a singleton type changes what
an object finds in one case only. The object of a class without a singleton
type finds what `Class` has; once it has one, it finds what the object of the
first type above finds that has a singleton type already, or is a module
(`Rebases`, `found?_singletonOf_rebased`). All other objects find what they found
(`found?_singletonOf_kept`).

Under it lies one fact about lookup: a class into which nothing is mixed has its
own methods, and otherwise what its superclass finds (`findMethod?_of_bare`).
-/
import ObjectModel.Proofs.Registry.AncestorOrder
import ObjectModel.Proofs.Registry.Mirror

namespace ObjectModel.Registry

variable {r r' : Registry}

-- ==================================================== lookup through a class

namespace WellFormed

variable (wf : r.WellFormed)

include wf

/-- A class that mixes in nothing finds its own methods, and what its superclass
finds. -/
theorem findMethod?_of_bare {t u : TypeId} (super : (r.record t).superclass = some u)
    (bare : (r.record t).includes = []) (name : String) :
    r.findMethod? t name = ((r.record t).methods.get? name).or (r.findMethod? u name) := by
  have hlayer : r.layer t = [t] := wf.layer_eq (.cons (by rw [bare]; exact .nil) .nil)
  rw [wf.findMethod?_of_superclass super, hlayer]
  unfold firstMethod?
  rw [List.findSome?_singleton]

/-- All types of its chain are ancestors of a type. -/
theorem mem_ancestors : ∀ {chain : List TypeId} {t u : TypeId}, r.Ascends t chain → u ∈ chain →
    u ∈ r.ancestors t := by
  intro chain
  induction chain with
  | nil => intro t u _ mem; cases mem
  | cons a rest ih =>
      intro t u ascends mem
      obtain rfl : a = t := Option.some_inj.mp ascends.head
      have has := ascends.has a List.mem_cons_self
      rw [wf.mem_ancestors_iff_links has]
      rcases List.mem_cons.mp mem with rfl | mem
      · exact .refl
      · rcases ascends.uncons with ⟨hchain, -⟩ | ⟨v, rest', hchain, super, above⟩
        · cases hchain
          cases mem
        · cases hchain
          have hasv := (wf.superclass_some super).2.1
          exact .head (.inl super) ((wf.mem_ancestors_iff_links hasv).mp (ih above mem))

end WellFormed

-- =========================================================== what an object finds

/-- The method that a message to an object finds. -/
def found? (r : Registry) (o : ObjectId) (name : String) : Option Method :=
  r.findMethod? (r.cell o).metaType name

theorem found?_of_some {o : ObjectId} {s : TypeId} (h : (r.cell o).singleton = some s)
    (name : String) : r.found? o name = r.findMethod? s name := by
  unfold found? HeapObject.metaType
  rw [h]
  rfl

theorem found?_of_none {o : ObjectId} (h : (r.cell o).singleton = none) (name : String) :
    r.found? o name = r.findMethod? (r.cell o).logicalType name := by
  unfold found? HeapObject.metaType
  rw [h]
  rfl

/-- The object of a class without a singleton type finds what `Class` has. -/
theorem WellFormed.found?_of_class (wf : r.WellFormed) {o : ObjectId} {t : TypeId}
    (h : r.denotes? o = some t) (class_ : (r.record t).kind = .classType)
    (free : (r.cell o).singleton = none) (name : String) :
    r.found? o name = r.findMethod? Core.classType name := by
  obtain ⟨has, rfl⟩ := wf.denotes_object h
  rw [found?_of_none free, wf.object_logical has, class_]
  rfl

namespace Mirrored

variable (wf : r.WellFormed) (mirrored : r.Mirrored)

include wf mirrored

/-- The singleton types of the types above a class are above its singleton type. -/
theorem exists_mem_chain : ∀ {chain metachain : List TypeId} {t s : TypeId},
    r.Ascends t chain → r.Ascends s metachain → (r.cell (r.objectOf t)).singleton = some s →
      ∀ u ∈ chain, ∃ q, (r.cell (r.objectOf u)).singleton = some q ∧ q ∈ metachain := by
  intro chain
  induction chain with
  | nil => intro _ t s _ _ _ u mem; cases mem
  | cons a rest ih =>
      intro metachain t s ascends metaAscends h u mem
      obtain rfl : a = t := Option.some_inj.mp ascends.head
      rcases List.mem_cons.mp mem with rfl | mem
      · exact ⟨s, h, List.mem_of_mem_head? metaAscends.head⟩
      · rcases ascends.uncons with ⟨hchain, -⟩ | ⟨v, rest', hchain, super, above⟩
        · cases hchain
          cases mem
        · cases hchain
          obtain ⟨p, hp, hsuper⟩ := mirrored.exists_singleton_super wf super h
          rcases metaAscends.uncons with ⟨-, top⟩ | ⟨p', metarest, rfl, hsuper', metaAbove⟩
          · rw [top] at hsuper
            cases hsuper
          · rw [hsuper] at hsuper'
            cases hsuper'
            obtain ⟨q, hq, hmem⟩ := ih above metaAbove hp u mem
            exact ⟨q, hq, List.mem_cons_of_mem _ hmem⟩

/-- A class object with a singleton type looks through the singleton types of all
types above. -/
theorem exists_singleton_ancestor {chain : List TypeId} {t s u : TypeId}
    (ascends : r.Ascends t chain) (h : (r.cell (r.objectOf t)).singleton = some s)
    (mem : u ∈ chain) :
    ∃ q, (r.cell (r.objectOf u)).singleton = some q ∧ q ∈ r.ancestors s := by
  obtain ⟨metachain, metaAscends⟩ := wf.exists_ascends (wf.singleton_class h).1
  obtain ⟨q, hq, hmem⟩ := mirrored.exists_mem_chain wf ascends metaAscends h u mem
  exact ⟨q, hq, wf.mem_ancestors metaAscends hmem⟩

/-- If nothing is mixed into its singleton type, a class object finds its own
singleton methods, and what the superclass's object finds. -/
theorem found?_of_bare {t s u : TypeId} (h : (r.cell (r.objectOf t)).singleton = some s)
    (super : (r.record t).superclass = some u) (bare : (r.record s).includes = [])
    (name : String) : r.found? (r.objectOf t) name
      = ((r.record s).methods.get? name).or (r.found? (r.objectOf u) name) := by
  obtain ⟨p, hp, hsuper⟩ := mirrored.exists_singleton_super wf super h
  rw [found?_of_some h, found?_of_some hp]
  exact wf.findMethod?_of_bare hsuper bare name

end Mirrored

-- ============================================================== after a request

/-- The object of a type has a singleton type, or will have one below `Module`. -/
def anchors (r : Registry) (u : TypeId) : Bool :=
  (r.cell (r.objectOf u)).singleton.isSome || (r.record u).kind == .moduleType

/-- The first type of a chain that a new singleton type at its lower end comes to
rest on. -/
def anchor? (r : Registry) (chain : List TypeId) : Option TypeId := chain.find? r.anchors

theorem anchors_of_some {u s : TypeId} (h : (r.cell (r.objectOf u)).singleton = some s) :
    r.anchors u = true := by
  unfold anchors
  rw [h]
  rfl

theorem anchors_of_none {u : TypeId} (h : (r.cell (r.objectOf u)).singleton = none) :
    r.anchors u = ((r.record u).kind == .moduleType) := by
  unfold anchors
  rw [h]
  rfl

namespace Attaches

variable {os : List ObjectId} (wf : r.WellFormed) (mirrored : r.Mirrored)
  (row : Attaches r os r') (name : String)

include wf mirrored row

omit name in
/-- What is in a row had no singleton type. -/
theorem free_of_mem {p : ObjectId} (mem : p ∈ os) : (r.cell p).singleton = none := by
  induction row with
  | nil => cases mem
  | @snoc r' os o u before holds free asked ih =>
      rcases List.mem_append.mp mem with hold | hnew
      · exact ih hold
      · rw [List.mem_singleton] at hnew
        subst hnew
        cases hs : (r.cell p).singleton with
        | none => rfl
        | some s =>
            rw [(before.keeps wf mirrored).2.2.singleton_some hs] at free
            cases free

/-- Types that were there find what they found. -/
theorem findMethod?_eq {t : TypeId} (has : r.Has t) :
    r'.findMethod? t name = r.findMethod? t name :=
  wf.findMethod?_eq_of_epoch (row.keeps wf mirrored).2.2 row.attached.epoch_eq has name

/-- An object that got no singleton type finds what it found. -/
theorem found?_eq {p : ObjectId} (holds : r.Holds p) (old : p ∉ os) :
    r'.found? p name = r.found? p name := by
  have hmeta : (r'.cell p).metaType = (r.cell p).metaType := by
    unfold HeapObject.metaType
    rw [row.attached.singleton_kept old, row.attached.cell_old holds]
  unfold found?
  rw [hmeta]
  exact row.findMethod?_eq wf mirrored name (wf.has_metaType p)

/-- An object that got a singleton type looks on where that says. -/
theorem found?_of_mem {p : ObjectId} (mem : p ∈ os) :
    ∃ s u, (r'.cell p).singleton = some s ∧ r'.singletonSuper? p = some u
      ∧ r'.found? p name = r'.findMethod? u name := by
  obtain ⟨hwf, hmirrored, -⟩ := row.keeps wf mirrored
  obtain ⟨i, hi⟩ := List.mem_iff_getElem?.mp mem
  obtain ⟨hattached, hincludes, hmethods, -⟩ := row.attached.record_new hi
  obtain ⟨u, hasked, hsuper⟩ := hmirrored.superclass_some hattached
  have hsingleton := hmirrored.singleton_iff.mpr hattached
  refine ⟨_, u, hsingleton, hasked, ?_⟩
  rw [found?_of_some hsingleton, hwf.findMethod?_of_bare hsuper hincludes, hmethods]
  rfl

omit name in
theorem singleton_ne_none {p : ObjectId} (mem : p ∈ os) : (r'.cell p).singleton ≠ none := by
  obtain ⟨i, hi⟩ := List.mem_iff_getElem?.mp mem
  have hattached := (row.attached.record_new hi).1
  rw [(row.keeps wf mirrored).2.1.singleton_iff.mpr hattached]
  exact Option.some_ne_none _

/-- An object of no class finds what it found, with a new singleton type too. -/
theorem found?_of_mem_of_ne_class {p : ObjectId} (holds : r.Holds p) (mem : p ∈ os)
    (other : ∀ t, r.denotes? p = some t → (r.record t).kind = .moduleType) :
    r'.found? p name = r.found? p name := by
  obtain ⟨-, -, hgrows⟩ := row.keeps wf mirrored
  obtain ⟨s, u, -, hasked, hfound⟩ := row.found?_of_mem wf mirrored name mem
  have hasked' : r.singletonSuper? p = some (r.cell p).logicalType := by
    cases hd : r.denotes? p with
    | none => exact singletonSuper?_of_object hd
    | some t =>
        obtain ⟨has, rfl⟩ := wf.denotes_object hd
        rw [singletonSuper?_of_module hd (other t hd), wf.object_logical has, other t hd]
        rfl
  rw [singletonSuper?_mono wf hgrows holds hasked', Option.some_inj] at hasked
  rw [hfound, ← hasked, found?_of_none (row.free_of_mem wf mirrored mem)]
  exact row.findMethod?_eq wf mirrored name (wf.logical_has holds)

/-- The object of a type with a singleton type finds what the object of the first
type of its chain found that had one before, or is a module. The induction is on
the chain. -/
theorem found?_of_ascends : ∀ {chain : List TypeId} {t : TypeId}, r.Ascends t chain →
    (r'.cell (r.objectOf t)).singleton ≠ none →
      r'.found? (r.objectOf t) name = match r.anchor? chain with
        | some u => r.found? (r.objectOf u) name
        | none => r.findMethod? Core.classType name := by
  obtain ⟨hwf, hmirrored, hgrows⟩ := row.keeps wf mirrored
  intro chain
  induction chain with
  | nil => intro t ascends; cases ascends.head
  | cons a rest ih =>
      intro t ascends linked
      obtain rfl : a = t := Option.some_inj.mp ascends.head
      have has := ascends.has a List.mem_cons_self
      have hholds := wf.object_holds has
      have hdenotes := wf.object_denotes has
      have hsame := hgrows.identity has
      have hdenotes' := hwf.object_denotes (hgrows.has has)
      rw [hsame.object_eq] at hdenotes'
      unfold anchor?
      cases hs : (r.cell (r.objectOf a)).singleton with
      | some s =>
          have hold : r.objectOf a ∉ os := by
            intro mem
            rw [row.free_of_mem wf mirrored mem] at hs
            cases hs
          rw [List.find?_cons_of_pos (anchors_of_some hs)]
          exact row.found?_eq wf mirrored name hholds hold
      | none =>
          have hmem : r.objectOf a ∈ os := by
            by_contra hno
            rw [row.attached.singleton_kept hno] at linked
            exact linked hs
          cases hkind : (r.record a).kind with
          | moduleType =>
              rw [List.find?_cons_of_pos (by rw [anchors_of_none hs, hkind]; rfl)]
              refine row.found?_of_mem_of_ne_class wf mirrored name hholds hmem fun t h => ?_
              rw [hdenotes] at h
              cases h
              exact hkind
          | classType =>
              obtain ⟨s, u, -, hasked, hfound⟩ := row.found?_of_mem wf mirrored name hmem
              have hclass' := hsame.kind_eq.trans hkind
              rw [List.find?_cons_of_neg (by rw [anchors_of_none hs, hkind]; decide), hfound]
              rcases ascends.uncons with ⟨hchain, top⟩ | ⟨v, rest', hchain, super, above⟩
              · cases hchain
                rw [singletonSuper?_of_root hdenotes' hclass' (hsame.superclass_eq.trans top),
                  Option.some_inj] at hasked
                rw [← hasked]
                exact row.findMethod?_eq wf mirrored name (wf.metatype_class .classType).1
              · cases hchain
                have hasv := (wf.superclass_some super).2.1
                rw [singletonSuper?_of_class hdenotes' hclass' (hsame.superclass_eq.trans super),
                  (hgrows.identity hasv).object_eq] at hasked
                have habove := ih above (by rw [hasked]; exact Option.some_ne_none u)
                rw [found?_of_some hasked] at habove
                exact habove

end Attaches

/-- A request for the singleton type of `o` makes one for the object of the class
`t`, and `u` is the first type above `t` that has one already, or is a module. -/
structure Rebases (r : Registry) (o : ObjectId) (t u : TypeId) : Prop where
  class_kind : (r.record t).kind = .classType
  free : (r.cell (r.objectOf t)).singleton = none
  asked : o = r.objectOf t ∨ ∃ above, r.TypesAbove o above ∧ t ∈ above
  first : ∃ chain, r.Ascends t chain ∧ r.anchor? chain = some u

section singletonOf

variable (wf : r.WellFormed) {o : ObjectId}

include wf

/-- A type whose object gets a singleton type was asked for, or is above the
one that was. -/
theorem TypesAbove.asked {above : List TypeId} {t : TypeId} (types : r.TypesAbove o above)
    (has : r.Has t)
    (mem : r.objectOf t ∈ (r.lacking (above.map r.objectOf)).reverse ++ [o]) :
    o = r.objectOf t ∨ ∃ above, r.TypesAbove o above ∧ t ∈ above := by
  rcases List.mem_append.mp mem with hlack | hown
  · obtain ⟨hlack, -⟩ := List.mem_filter.mp (List.mem_reverse.mp hlack)
    obtain ⟨v, hv, heq⟩ := List.mem_map.mp hlack
    have hasv : r.Has v := by
      cases types with
      | object => cases hv
      | type _ ascends => exact ascends.has v (List.mem_cons_of_mem _ hv)
    have hdenotes := wf.object_denotes hasv
    rw [show (r.record v).object = r.objectOf t from heq, wf.object_denotes has] at hdenotes
    cases hdenotes
    exact .inr ⟨above, types, hv⟩
  · rw [List.mem_singleton] at hown
    exact .inl hown.symm

/-- A type without a singleton type that was asked for gets one, and so does
one above it. -/
theorem Rebases.exists_mem {t u : TypeId} (rebases : r.Rebases o t u) :
    ∃ above, r.TypesAbove o above
      ∧ r.objectOf t ∈ (r.lacking (above.map r.objectOf)).reverse ++ [o] := by
  obtain ⟨-, free, rfl | ⟨above, types, mem⟩, -⟩ := rebases
  · obtain ⟨above, types⟩ := exists_typesAbove wf (r.objectOf t)
    exact ⟨above, types, List.mem_append_right _ List.mem_cons_self⟩
  · refine ⟨above, types, List.mem_append_left _ (List.mem_reverse.mpr ?_)⟩
    unfold lacking
    rw [List.mem_filter, free]
    exact ⟨List.mem_map_of_mem mem, rfl⟩

variable (mirrored : r.Mirrored)

include mirrored

/-- An object with a singleton type asks for nothing above it. -/
theorem Mirrored.not_rebases {s t u : TypeId} (h : (r.cell o).singleton = some s) :
    ¬ r.Rebases o t u := by
  rintro ⟨-, free, rfl | ⟨above, types, mem⟩, -⟩
  · rw [free] at h
    cases h
  · cases types with
    | object => cases mem
    | @type v _ hd ascends =>
        obtain ⟨-, rfl⟩ := wf.denotes_object hd
        have hnone := mirrored.lacking_eq_nil wf ascends h
        have hlack : r.objectOf t ∈ r.lacking ((v :: above).map r.objectOf) := by
          unfold lacking
          rw [List.mem_filter, free]
          exact ⟨List.mem_map_of_mem (List.mem_cons_of_mem _ mem), rfl⟩
        rw [hnone] at hlack
        cases hlack

/-- Unless its class is moved below a type that had a singleton type, or below a
module, an object finds after a request what it found before. -/
theorem found?_singletonOf_kept (holds : r.Holds o) {p : ObjectId} (holdsp : r.Holds p)
    (kept : ∀ t u, r.denotes? p = some t → ¬ r.Rebases o t u) (name : String) :
    (r.singletonOf o).2.found? p name = r.found? p name := by
  cases hs : (r.cell o).singleton with
  | some s => rw [singletonOf_of_some hs]
  | none =>
      obtain ⟨above, types⟩ := exists_typesAbove wf o
      obtain ⟨row, -⟩ := attaches_singletonOf wf mirrored holds hs types
      generalize (r.singletonOf o).2 = r' at row ⊢
      by_cases hmem : p ∈ (r.lacking (above.map r.objectOf)).reverse ++ [o]
      · by_cases hclass : ∃ t, r.denotes? p = some t ∧ (r.record t).kind = .classType
        · obtain ⟨t, hd, class_⟩ := hclass
          obtain ⟨has, rfl⟩ := wf.denotes_object hd
          have hfree := row.free_of_mem wf mirrored hmem
          obtain ⟨chain, ascends⟩ := wf.exists_ascends has
          rw [row.found?_of_ascends wf mirrored name ascends
            (row.singleton_ne_none wf mirrored hmem)]
          cases hfirst : r.anchor? chain with
          | none => exact (wf.found?_of_class hd class_ hfree name).symm
          | some u =>
              exact absurd ⟨class_, hfree, types.asked wf has hmem, chain, ascends, hfirst⟩
                (kept t u hd)
        · refine row.found?_of_mem_of_ne_class wf mirrored name holdsp hmem fun t h => ?_
          cases hkind : (r.record t).kind with
          | moduleType => rfl
          | classType => exact absurd ⟨t, h, hkind⟩ hclass
      · exact row.found?_eq wf mirrored name holdsp hmem

/-- The object of a class that a request moves finds what the object of the type
found that the class was moved below. -/
theorem found?_singletonOf_rebased (holds : r.Holds o) {t u : TypeId} (rebases : r.Rebases o t u)
    (name : String) :
    (r.singletonOf o).2.found? (r.objectOf t) name = r.found? (r.objectOf u) name := by
  cases hs : (r.cell o).singleton with
  | some s => exact absurd rebases (mirrored.not_rebases wf hs)
  | none =>
      obtain ⟨above, types, hmem⟩ := rebases.exists_mem wf
      obtain ⟨row, -⟩ := attaches_singletonOf wf mirrored holds hs types
      obtain ⟨chain, ascends, hfirst⟩ := rebases.first
      rw [row.found?_of_ascends wf mirrored name ascends
        (row.singleton_ne_none wf mirrored hmem), hfirst]

end singletonOf

end ObjectModel.Registry
