/-
Which classes descend from `BasicObject`.

A chain of superclasses ends at a type without a superclass. Of the classes that
is `BasicObject` alone, so a chain that does not end there ends at a module. No
definition makes a class below a module, but an object may be made from a module,
and a request for its singleton type does (`Stray`). So the type graph is as its
readers expect it, and the check of the graph passes, exactly as long as no object
that was made from a module has a singleton type (`soundGraph_of_reachable`).
-/
import ObjectModel.Proofs.Registry.Mirror

namespace ObjectModel.Registry

variable {r r' : Registry}

-- ============================================================ what is promised

/-- The singleton type `s` of an object that was made from the module `m`. -/
structure Stray (r : Registry) (s m : TypeId) : Prop where
  module_ : (r.record m).kind = .moduleType
  made : ∃ o, (r.record s).attached = some o ∧ r.denotes? o = none ∧ (r.cell o).logicalType = m

/-- A chain of classes that ends at `BasicObject`. -/
structure Descends (r : Registry) (chain : List TypeId) : Prop where
  classes : ∀ a ∈ chain, (r.record a).kind = .classType
  last : chain.getLast? = some Core.basicObject

/-- A chain of classes that goes on from the singleton type of an object to the
module that the object was made from. -/
inductive Strayed (r : Registry) : List TypeId → Prop
  | intro {below : List TypeId} {s m : TypeId} : r.Stray s m →
      (∀ a ∈ below ++ [s], (r.record a).kind = .classType) → Strayed r (below ++ [s, m])

/-- A type graph as its readers expect it, but for strays. -/
structure SoundGraph (r : Registry) : Prop where
  root_superclass : (r.record Core.basicObject).superclass = none
  class_chain : ∀ {t : TypeId}, r.Has t → (r.record t).kind = .classType →
    ∃ chain, r.Ascends t chain ∧ (r.Descends chain ∨ r.Strayed chain)
  module_superclass : ∀ {t : TypeId}, r.Has t → (r.record t).kind = .moduleType →
    (r.record t).superclass = none
  includes_module : ∀ {t m : TypeId}, r.Includes t m →
    r.Has m ∧ (r.record m).kind = .moduleType
  includes_nodup : ∀ t : TypeId, (r.record t).includes.Nodup
  includes_acyclic : ∀ t : TypeId, ¬ r.Inside t t
  object_denotes : ∀ {t : TypeId}, r.Has t →
    r.Holds (r.record t).object ∧ r.denotes? (r.record t).object = some t
  object_logical : ∀ {t : TypeId}, r.Has t →
    (r.cell (r.record t).object).logicalType = (r.record t).kind.metatype
  /-- The check passes unless there is a stray. -/
  verify_eq_ok_iff : r.verify = .ok () ↔ ¬ ∃ s m, r.Stray s m
  verify_eq_error_iff : (∃ reason, r.verify = .error (.malformedTypeGraph reason))
    ↔ ∃ s m, r.Stray s m

-- =========================================================== where classes are made

/-- A type that was added is below a class, or below nothing. -/
structure AddsBelowClasses (r r' : Registry) : Prop where
  class_super : ∀ {t u : TypeId}, ¬ r.Has t → (r'.record t).superclass = some u →
    (r'.record u).kind = .classType

namespace AddsBelowClasses

theorem of_size_eq (size : r'.size = r.size) : AddsBelowClasses r r' where
  class_super {t u} new super := by
    have has := has_of_superclass super
    unfold Has at has new
    exact absurd (size ▸ has) new

theorem adopt (adds : AddsBelowClasses r r') (t parent : TypeId) (name : String) :
    AddsBelowClasses r (r'.adopt t parent name) where
  class_super {v u} new super := by
    have same := sameGraph_adopt r' t parent name
    rw [(same.place v).superclass_eq] at super
    rw [(same.place u).kind_eq]
    exact adds.class_super new super

theorem allocType (kind : TypeKind) {superclass : Option TypeId} (shape : Shape)
    (below : ∀ u, superclass = some u → r.Has u ∧ (r.record u).kind = .classType) :
    AddsBelowClasses r (r.allocType kind kind.metatype superclass shape).2 where
  class_super {t u} new super := by
    have made := allocates_allocType r kind superclass shape
    obtain rfl := (made.has_iff.mp (has_of_superclass super)).resolve_left new
    rw [made.superclass_new] at super
    exact (made.class_old (below u super)).2

theorem defineAnonymousClass {superclass t : TypeId} {shape : Option Shape}
    (has : r.Has superclass) (h : r.defineAnonymousClass superclass shape = (.ok t, r')) :
    AddsBelowClasses r r' := by
  obtain ⟨class_, hmade⟩ := defineAnonymousClass_inv h
  have hadds : AddsBelowClasses r (r.allocType .classType Core.classType (some superclass)
      (shape.getD (r.record superclass).shape)).2 := allocType .classType _ (by intro u hu; cases hu; exact ⟨has, class_⟩)
  cases hmade
  exact hadds

/-- Operations other than a request for a singleton type make classes below
classes. -/
theorem apply {op : Operation} (valid : op.Valid r) (other : ∀ o, op ≠ .makeSingleton o) :
    AddsBelowClasses r (op.apply r) := by
  have hrefl : AddsBelowClasses r r := of_size_eq rfl
  cases op with
  | defineClass parent superclass name shape =>
      refine (looks_defineClassUnder ..).keeps (P := AddsBelowClasses r) hrefl fun h => ?_
      rcases defineClassUnder_inv h with ⟨rfl, -⟩ | ⟨s, made, hs, -, hmade, rfl⟩
      · exact hrefl
      · exact (defineAnonymousClass (valid.2 s hs) hmade).adopt _ _ _
  | defineAnonymousClass superclass shape =>
      exact (looks_defineAnonymousClass ..).keeps (P := AddsBelowClasses r) hrefl fun h =>
        defineAnonymousClass valid h
  | defineModule parent name =>
      refine (looks_defineModuleUnder ..).keeps (P := AddsBelowClasses r) hrefl fun h => ?_
      rcases defineModuleUnder_inv h with ⟨rfl, -⟩ | ⟨made, -, hmade, rfl⟩
      · exact hrefl
      · have below : ∀ u, none = some u → r.Has u ∧ (r.record u).kind = .classType := nofun
        have hadds := allocType .moduleType moduleShape below
        cases hmade
        exact hadds.adopt _ _ _
  | mixIn target m =>
      refine (looks_includeModule ..).keeps (P := AddsBelowClasses r) hrefl fun h => ?_
      obtain ⟨-, -, -, rfl⟩ := includeModule_inv h
      exact of_size_eq (size_modifyType r target _)
  | setConstant owner name value =>
      exact of_size_eq (sameGraph_setConstant r owner name value).size_eq
  | defineMethod owner name arity body =>
      exact of_size_eq (sameGraph_defineMethod r owner name arity body).size_eq
  | makeSingleton o => exact absurd rfl (other o)
  | defineShape name fields => exact of_size_eq rfl
  | makeObject cls text => exact of_size_eq rfl

end AddsBelowClasses

/-- Only singleton types are below modules. -/
structure FreeBelowClasses (r : Registry) : Prop where
  class_super : ∀ {t u : TypeId}, (r.record t).attached = none →
    (r.record t).superclass = some u → (r.record u).kind = .classType

theorem FreeBelowClasses.apply (wf : r.WellFormed) (mirrored : r.Mirrored)
    (below : r.FreeBelowClasses) {op : Operation} (valid : op.Valid r) :
    (op.apply r).FreeBelowClasses := by
  have grows : Grows r (op.apply r) := .apply wf op
  refine ⟨fun {t u} free super => ?_⟩
  by_cases old : r.Has t
  · have hsame := grows.identity old
    rw [hsame.superclass_eq] at super
    rw [(grows.identity (wf.superclass_some super).2.1).kind_eq]
    refine below.class_super ?_ super
    cases h : (r.record t).attached with
    | none => rfl
    | some o =>
        have linked := grows.singleton_some (mirrored.singleton_iff.mpr h)
        rw [(mirrored.apply wf op valid).singleton_iff.mp linked] at free
        cases free
  · by_cases hop : ∃ o, op = .makeSingleton o
    · obtain ⟨o, rfl⟩ := hop
      obtain ⟨os, row⟩ := exists_attaches_singletonOf wf mirrored valid
      have attached := row.attached
      have has : t.index < r.size + os.length := attached.size_eq ▸ has_of_superclass super
      -- a type that was added is attached to the object that it was made for
      obtain ⟨i, hi⟩ := Nat.exists_eq_add_of_le (Nat.le_of_not_lt old)
      obtain rfl : t = ⟨r.size + i⟩ := congrArg TypeId.mk hi
      have hlt : i < os.length := by dsimp only at has; omega
      have hnew := (attached.record_new (List.getElem?_eq_getElem hlt)).1
      exact absurd (hnew.symm.trans free) (Option.some_ne_none _)
    · rw [not_exists] at hop
      exact (AddsBelowClasses.apply valid hop).class_super old super

theorem freeBelowClasses_initial : initial.FreeBelowClasses := by
  have hall : ∀ x ∈ initial.types, ∀ u, x.superclass = some u →
      (initial.record u).kind = .classType := by decide
  refine ⟨fun {t u} _ super => ?_⟩
  have has := has_of_superclass super
  refine hall _ (List.getElem_mem has) u ?_
  unfold record at super
  rwa [List.getD_eq_getElem?_getD, List.getElem?_eq_getElem has] at super

theorem Reachable.freeBelowClasses (reachable : r.Reachable) : r.FreeBelowClasses := by
  unfold Reachable at reachable
  induction reachable with
  | refl => exact freeBelowClasses_initial
  | step op before valid ih =>
      exact ih.apply (Reachable.wellFormed before) (Reachable.mirrored before) valid

-- ===================================================================== the chains

section chains

variable (wf : r.WellFormed) (mirrored : r.Mirrored) (below : r.FreeBelowClasses)

include wf mirrored

/-- What asks for a module is an object that was made from it. -/
theorem Mirrored.stray_iff {s m : TypeId} (attached : (r.record s).attached ≠ none) :
    r.Stray s m ↔ (r.record s).superclass = some m ∧ (r.record m).kind = .moduleType := by
  constructor
  · rintro ⟨module_, o, hattached, plain, made⟩
    obtain ⟨u, hasked, hsuper⟩ := mirrored.superclass_some hattached
    rw [singletonSuper?_of_object plain, made] at hasked
    cases hasked
    exact ⟨hsuper, module_⟩
  · rintro ⟨super, module_⟩
    obtain ⟨o, hattached⟩ := Option.ne_none_iff_exists'.mp attached
    obtain ⟨u, hasked, hsuper⟩ := mirrored.superclass_some hattached
    rw [hsuper] at super
    cases super
    refine ⟨module_, o, hattached, ?_⟩
    unfold singletonSuper? at hasked
    split at hasked
    · next plain => exact ⟨plain, Option.some_inj.mp hasked⟩
    · -- what stands for a type asks for a class
      exfalso
      split at hasked
      · cases hasked
        rw [wf.core_kind (by decide)] at module_
        cases module_
      · cases hasked
        rw [wf.core_kind (by decide)] at module_
        cases module_
      · rw [(wf.singleton_class hasked).2] at module_
        cases module_

include below

theorem stray_of_superclass {t m : TypeId} (super : (r.record t).superclass = some m)
    (module_ : (r.record m).kind = .moduleType) : r.Stray t m := by
  refine (mirrored.stray_iff wf fun free => ?_).mpr ⟨super, module_⟩
  rw [below.class_super free super] at module_
  cases module_

/-- A class's chain ends at the root, or strays to a module. -/
theorem descends_or_strayed : ∀ {chain : List TypeId} {t : TypeId}, r.Ascends t chain →
    (r.record t).kind = .classType → r.Descends chain ∨ r.Strayed chain := by
  intro chain
  induction chain with
  | nil => intro t ascends; cases ascends.head
  | cons a rest ih =>
      intro t ascends class_
      obtain rfl : a = t := Option.some_inj.mp ascends.head
      rcases ascends.uncons with ⟨hchain, top⟩ | ⟨u, rest', hchain, super, above⟩
      · cases hchain
        obtain rfl := wf.superclass_none (ascends.has a List.mem_cons_self) class_ top
        exact .inl ⟨fun b mem => List.mem_singleton.mp mem ▸ class_, rfl⟩
      · cases hchain
        cases hkind : (r.record u).kind with
        | classType =>
            rcases ih above hkind with descends | strayed
            · refine .inl ⟨fun b mem => ?_, ?_⟩
              · rcases List.mem_cons.mp mem with rfl | mem
                · exact class_
                · exact descends.classes b mem
              · rw [List.getLast?_cons, descends.last]
                rfl
            · cases strayed with
              | @intro lower s m stray classes =>
                  refine .inr (@Strayed.intro _ (a :: lower) s m stray fun b mem => ?_)
                  rcases List.mem_cons.mp mem with rfl | mem
                  · exact class_
                  · exact classes b mem
        | moduleType =>
            have stray := stray_of_superclass wf mirrored below super hkind
            rcases above.uncons with ⟨rfl, -⟩ | ⟨v, _, -, hsuper, -⟩
            · refine .inr (@Strayed.intro _ [] a u stray fun b mem => ?_)
              rw [List.mem_singleton.mp mem]
              exact class_
            · rw [(wf.superclass_some hsuper).1] at hkind
              cases hkind

-- ====================================================================== the check

omit below in
/-- The check finds fault with a stray. -/
theorem chainFault?_of_stray {s m : TypeId} (stray : r.Stray s m) : r.chainFault? s ≠ none := by
  obtain ⟨o, hattached, -⟩ := stray.made
  have attached : (r.record s).attached ≠ none := by
    rw [hattached]
    exact Option.some_ne_none o
  obtain ⟨super, module_⟩ := (mirrored.stray_iff wf attached).mp stray
  have has := has_of_superclass super
  obtain ⟨class_, hasm, -⟩ := wf.superclass_some super
  have top : (r.record m).superclass = none := by
    cases h : (r.record m).superclass with
    | none => rfl
    | some u =>
        rw [(wf.superclass_some h).1] at module_
        cases module_
  have hend := wf.chainEnd?_eq r.size ((Ascends.single hasm top).cons has super)
    (Nat.le_of_lt (chainRank_lt_size wf.four_le_size has))
  have hne : m ≠ Core.basicObject := by
    rintro rfl
    rw [wf.core_kind (by decide)] at module_
    cases module_
  unfold chainFault?
  rw [class_, hend]
  show (if m = Core.basicObject then none else some _) ≠ none
  rw [if_neg hne]
  exact Option.some_ne_none _

theorem exists_stray_of_chainFault? {t : TypeId} (has : r.Has t) (fault : r.chainFault? t ≠ none) :
    ∃ s m, r.Stray s m := by
  unfold chainFault? at fault
  cases hkind : (r.record t).kind with
  | moduleType =>
      rw [hkind] at fault
      exact absurd rfl fault
  | classType =>
      obtain ⟨chain, ascends⟩ := wf.exists_ascends has
      rcases descends_or_strayed wf mirrored below ascends hkind with descends | ⟨stray, -⟩
      · have hend := wf.chainEnd?_eq r.size ascends
          (Nat.le_of_lt (chainRank_lt_size wf.four_le_size has))
        rw [hkind, hend, descends.last] at fault
        exact absurd (if_pos rfl) fault
      · exact ⟨_, _, stray⟩

/-- The check is about strays, and answers nothing but faults of the graph. -/
theorem verify_account :
    (r.verify = .ok () ∧ ¬ ∃ s m, r.Stray s m)
      ∨ (∃ reason, r.verify = .error (.malformedTypeGraph reason)) ∧ ∃ s m, r.Stray s m := by
  unfold verify
  rw [wf.meta_superclass, wf.root_superclass, if_neg (by decide), if_neg (by decide)]
  cases hfault : r.typeIds.findSome? r.chainFault? with
  | none =>
      refine .inl ⟨rfl, ?_⟩
      rintro ⟨s, m, stray⟩
      obtain ⟨o, hattached, -⟩ := stray.made
      have mem : s ∈ r.typeIds :=
        List.mem_map.mpr ⟨s.index, List.mem_range.mpr (has_of_attached hattached), rfl⟩
      exact chainFault?_of_stray wf mirrored stray (List.findSome?_eq_none_iff.mp hfault s mem)
  | some reason =>
      obtain ⟨t, mem, hreason⟩ := List.exists_of_findSome?_eq_some hfault
      obtain ⟨i, hi, rfl⟩ := List.mem_map.mp mem
      refine .inr ⟨⟨reason, rfl⟩, ?_⟩
      refine exists_stray_of_chainFault? wf mirrored below (List.mem_range.mp hi) ?_
      rw [hreason]
      exact Option.some_ne_none _

end chains

/-- Where no object has a singleton type the check passes. -/
theorem Reachable.verify_eq_ok_of_none (reachable : r.Reachable)
    (none : ∀ o, (r.cell o).singleton = none) : r.verify = .ok () := by
  have mirrored := reachable.mirrored
  rcases verify_account reachable.wellFormed mirrored reachable.freeBelowClasses with
    ⟨passes, -⟩ | ⟨-, s, m, -, o, hattached, -⟩
  · exact passes
  · rw [← mirrored.singleton_iff, none] at hattached
    cases hattached

-- ================================================================ every registry

/-- Every reachable registry has a type graph that is sound but for strays, and its
check passes exactly if there is none. -/
theorem soundGraph_of_reachable (reachable : r.Reachable) : r.SoundGraph := by
  have wf := reachable.wellFormed
  have mirrored := reachable.mirrored
  have hverify := verify_account wf mirrored reachable.freeBelowClasses
  exact
    { root_superclass := wf.root_superclass
      class_chain := fun {t} has class_ => by
        obtain ⟨chain, ascends⟩ := wf.exists_ascends has
        exact ⟨chain, ascends,
          descends_or_strayed wf mirrored reachable.freeBelowClasses ascends class_⟩
      module_superclass := fun {t} _ module_ => by
        cases h : (r.record t).superclass with
        | none => rfl
        | some u =>
            rw [(wf.superclass_some h).1] at module_
            cases module_
      includes_module := wf.includes_module
      includes_nodup := wf.includes_nodup
      includes_acyclic := wf.includes_acyclic
      object_denotes := fun has => ⟨wf.object_holds has, wf.object_denotes has⟩
      object_logical := wf.object_logical
      verify_eq_ok_iff := by
        rcases hverify with ⟨passes, none⟩ | ⟨⟨reason, fails⟩, stray⟩
        · exact ⟨fun _ => none, fun _ => passes⟩
        · rw [fails]
          exact ⟨nofun, fun none => absurd stray none⟩
      verify_eq_error_iff := by
        rcases hverify with ⟨passes, none⟩ | ⟨fails, stray⟩
        · rw [passes]
          exact ⟨nofun, fun stray => absurd stray none⟩
        · exact ⟨fun _ => stray, fun _ => fails⟩ }

/-- A module, an object that was made from it, the object's singleton type, and a
class below that. -/
def strayBelow : List Operation :=
  [.defineModule Core.object "Greeting", .makeObject ⟨4⟩ none, .makeSingleton ⟨5⟩,
    .defineClass Core.object (some ⟨5⟩) "Below" none]

/-- Neither the singleton type nor the class below it descends from `BasicObject`. -/
theorem soundGraph_of_strayBelow :
    let r := initial.run strayBelow
    r.Reachable ∧ r.Ascends ⟨6⟩ [⟨6⟩, ⟨5⟩, ⟨4⟩] ∧ r.SoundGraph ∧ ∃ s m, r.Stray s m := by
  intro r
  have reachable : r.Reachable := evolves_run (by decide +kernel)
  have ascends : r.Ascends ⟨6⟩ [⟨6⟩, ⟨5⟩, ⟨4⟩] :=
    ((Ascends.single (by decide +kernel) (by decide +kernel)).cons (by decide +kernel)
      (by decide +kernel)).cons (by decide +kernel) (by decide +kernel)
  have sound := soundGraph_of_reachable reachable
  have fails : r.verify = .error (.malformedTypeGraph
      "#<Class:#<Greeting>> does not descend from BasicObject") := by decide +kernel
  exact ⟨reachable, ascends, sound, sound.verify_eq_error_iff.mp ⟨_, fails⟩⟩

/-- So a registry is reached with a class below a module, and the check reports it. -/
theorem verify_ne_ok_of_strayBelow :
    let r := initial.run strayBelow
    r.Reachable ∧ (r.record ⟨5⟩).kind = .classType ∧ (r.record ⟨5⟩).superclass = some ⟨4⟩
      ∧ (r.record ⟨4⟩).kind = .moduleType
      ∧ r.verify = .error (.malformedTypeGraph
          "#<Class:#<Greeting>> does not descend from BasicObject") :=
  ⟨evolves_run (by decide +kernel), by decide +kernel, by decide +kernel, by decide +kernel,
    by decide +kernel⟩

end ObjectModel.Registry
