/-
What a method definition changes for those who look methods up.

A definition writes one entry of one table and touches no link, so all
ancestors stay the lists they were. A lookup can change only for the name that
was defined, from a type with the owner among its ancestors, and then it finds
the new method unless a type before the owner has one of that name
(`findMethod?_defineMethod`).

Who has a class among its ancestors is a matter of superclasses alone: modules
are mixed in, classes never are, so a class above another is above its
superclass (`mem_ancestors_super`). For singleton types more is known. That of a plain
object is the superclass of no other singleton type, so an object has it among
its ancestors only if its class does (`Mirrored.mem_ancestors_logicalType`).
-/
import ObjectModel.Proofs.Registry.Inheritance

namespace ObjectModel.Registry

variable {r : Registry}

-- ============================================================== the new entry

section defineMethod

variable (r) (owner : TypeId) (name : String) (arity : Arity) (body : Body)

/-- A definition is an entry in the owner's table. -/
theorem record_defineMethod (t : TypeId) :
    (r.defineMethod owner name arity body).record t
      = if t = owner ∧ r.Has owner then
          { r.record owner with
            methods := (r.record owner).methods.set name ⟨name, owner, arity, body⟩ }
        else r.record t :=
  record_modifyType r owner t _

theorem methods_defineMethod_self (has : r.Has owner) :
    ((r.defineMethod owner name arity body).record owner).methods.get? name
      = some ⟨name, owner, arity, body⟩ := by
  rw [record_defineMethod, if_pos ⟨rfl, has⟩]
  exact Bindings.get?_set_self _ _ _

theorem methods_defineMethod_of_ne {t : TypeId} {k : String} (ne : t ≠ owner ∨ k ≠ name) :
    ((r.defineMethod owner name arity body).record t).methods.get? k
      = (r.record t).methods.get? k := by
  rw [record_defineMethod]
  split
  · next h =>
    obtain ⟨rfl, -⟩ := h
    exact Bindings.get?_set_of_ne (ne.resolve_left (not_not_intro rfl)) _ _
  · rfl

variable {r}

/-- A definition changes no list of ancestors. -/
theorem WellFormed.ancestors_defineMethod (wf : r.WellFormed) {t : TypeId} (has : r.Has t) :
    (r.defineMethod owner name arity body).ancestors t = r.ancestors t := by
  have hsize : (r.defineMethod owner name arity body).size = r.size := size_modifyType r owner _
  have hrank := chainRank_lt_size wf.four_le_size has
  refine wf.chainWalk_eq (Nat.le_of_eq hsize.symm) (fun _ => ?_) (fun _ => ?_) _ _ [] has hrank
    (by rw [hsize]; exact hrank)
  · refine record_modifyType_kept r TypeRecord.includes ?_ _
    exact fun _ => rfl
  · refine record_modifyType_kept r TypeRecord.superclass ?_ _
    exact fun _ => rfl

end defineMethod

/-- A search in which one probe was given an answer. -/
theorem findSome?_of_mem {α β : Type} [DecidableEq α] {f g : α → Option β} {a : α} {b : β}
    (answer : g a = some b) (other : ∀ x, x ≠ a → g x = f x) : ∀ {l : List α}, a ∈ l →
      l.findSome? g = ((l.takeWhile (· ≠ a)).findSome? f).or (some b) := by
  intro l
  induction l with
  | nil => intro mem; cases mem
  | cons x rest ih =>
      intro mem
      by_cases hx : x = a
      · subst hx
        rw [List.findSome?_cons, answer, List.takeWhile_cons_of_neg (by simp)]
        rfl
      · have hrest : a ∈ rest := (List.mem_cons.mp mem).resolve_left (Ne.symm hx)
        rw [List.findSome?_cons, other x hx, ih hrest,
          List.takeWhile_cons_of_pos (by simpa using hx), List.findSome?_cons]
        cases f x <;> rfl

/-- Types before a type in the list of ancestors of another. -/
def before (r : Registry) (t owner : TypeId) : List TypeId :=
  (r.ancestors t).takeWhile (· ≠ owner)

namespace WellFormed

variable (wf : r.WellFormed) {t owner : TypeId} (has : r.Has t)
  (name : String) (arity : Arity) (body : Body)

include wf has

/-- What a name finds after a definition. -/
theorem findMethod?_defineMethod (k : String) :
    (r.defineMethod owner name arity body).findMethod? t k
      = if k = name ∧ owner ∈ r.ancestors t then
          ((r.before t owner).findSome? fun a => (r.record a).methods.get? name).or
            (some ⟨name, owner, arity, body⟩)
        else r.findMethod? t k := by
  unfold findMethod?
  rw [wf.ancestors_defineMethod owner name arity body has]
  split
  · next h =>
    obtain ⟨rfl, hmem⟩ := h
    refine findSome?_of_mem ?_ (fun a ne => ?_) hmem
    · exact methods_defineMethod_self r owner k arity body (wf.ancestors_all_have has owner hmem)
    · exact methods_defineMethod_of_ne r owner k arity body (.inl ne)
  · next h =>
    refine findSome?_eq_of_agree _ fun a mem => ?_
    refine methods_defineMethod_of_ne r owner name arity body ?_
    by_contra hsame
    rw [not_or, not_ne_iff, not_ne_iff] at hsame
    obtain ⟨rfl, hname⟩ := hsame
    exact h ⟨hname, mem⟩

end WellFormed

-- =========================================================== the definition

/-- A method of the owner would be found from a type: the owner is an ancestor,
and no type before it defines the name. -/
structure Unshadowed (r : Registry) (t owner : TypeId) (name : String) : Prop where
  ancestor : owner ∈ r.ancestors t
  free : ∀ a ∈ r.before t owner, (r.record a).methods.get? name = none

/-- What the definition of a method does, and what it leaves. -/
structure MethodDefined (r r' : Registry) (method : Method) : Prop where
  found : ∀ {t : TypeId}, r.Has t → r.Unshadowed t method.owner method.name →
    r'.findMethod? t method.name = some method
  kept : ∀ {t : TypeId} {k : String}, r.Has t →
    ¬ (k = method.name ∧ r.Unshadowed t method.owner method.name) →
      r'.findMethod? t k = r.findMethod? t k
  epoch_lt : r.epoch < r'.epoch
  ancestors_eq : ∀ {t : TypeId}, r.Has t → r'.ancestors t = r.ancestors t
  constant?_eq : ∀ (t : TypeId) (k : String), r'.constant? t k = r.constant? t k
  findConstant?_eq : ∀ {t : TypeId}, r.Has t → ∀ k : String,
    r'.findConstant? t k = r.findConstant? t k
  name_eq : ∀ t : TypeId, (r'.record t).name = (r.record t).name
  displayName_eq : ∀ t : TypeId, r'.displayName t = r.displayName t

section kept

variable (r) (owner : TypeId) (name : String) (arity : Arity) (body : Body)

/-- A part that methods are no part of. -/
theorem record_defineMethod_kept {α : Type} (part : TypeRecord → α)
    (kept : ∀ (x : TypeRecord) (methods : Bindings Method),
      part { x with methods := methods } = part x) (t : TypeId) :
    part ((r.defineMethod owner name arity body).record t) = part (r.record t) :=
  record_modifyType_kept r part (fun x => kept x _) t

theorem constant?_defineMethod (t : TypeId) (k : String) :
    (r.defineMethod owner name arity body).constant? t k = r.constant? t k := by
  unfold constant?
  rw [record_defineMethod_kept r owner name arity body TypeRecord.constants fun _ _ => rfl]

theorem displayName_defineMethod (t : TypeId) :
    (r.defineMethod owner name arity body).displayName t = r.displayName t := by
  have kept := fun {α : Type} (part : TypeRecord → α) =>
    record_defineMethod_kept r owner name arity body part
  exact displayName_eq_of_same
    (fun u => ⟨kept TypeRecord.name (fun _ _ => rfl) u,
      kept TypeRecord.attached (fun _ _ => rfl) u, kept TypeRecord.kind (fun _ _ => rfl) u⟩)
    (fun _ _ _ => rfl) t

variable {r}

/-- Constants are looked up along the same lists. -/
theorem WellFormed.findConstant?_defineMethod (wf : r.WellFormed) {t : TypeId} (has : r.Has t)
    (k : String) :
    (r.defineMethod owner name arity body).findConstant? t k = r.findConstant? t k := by
  unfold findConstant? constantScope
  rw [wf.ancestors_defineMethod owner name arity body has,
    wf.ancestors_defineMethod owner name arity body (wf.has_core (by decide))]
  simp only [constant?_defineMethod]

end kept

/-- What is found before some type is found. -/
theorem findSome?_of_takeWhile {α β : Type} {p : α → Bool} {f : α → Option β} {l : List α} {b : β}
    (h : (l.takeWhile p).findSome? f = some b) : l.findSome? f = some b := by
  conv_lhs => rw [← List.takeWhile_append_dropWhile (p := p) (l := l)]
  rw [List.findSome?_append, h]
  rfl

/-- What a method definition does in a reachable registry. -/
theorem methodDefined_of_reachable (reachable : r.Reachable) (owner : TypeId) (name : String)
    (arity : Arity) (body : Body) :
    MethodDefined r (r.defineMethod owner name arity body) ⟨name, owner, arity, body⟩ := by
  have wf := reachable.wellFormed
  refine
    { found := fun {t} hast open_ => ?_
      kept := fun {t} {k} hast other => ?_
      epoch_lt := Nat.lt_succ_self r.epoch
      ancestors_eq := wf.ancestors_defineMethod owner name arity body
      constant?_eq := constant?_defineMethod r owner name arity body
      findConstant?_eq := wf.findConstant?_defineMethod owner name arity body
      name_eq := record_defineMethod_kept r owner name arity body TypeRecord.name fun _ _ => rfl
      displayName_eq := displayName_defineMethod r owner name arity body }
  · have hnone : ((r.before t owner).findSome? fun a => (r.record a).methods.get? name) = none :=
      List.findSome?_eq_none_iff.mpr open_.free
    rw [wf.findMethod?_defineMethod hast, if_pos ⟨rfl, open_.ancestor⟩, hnone]
    rfl
  · rw [wf.findMethod?_defineMethod hast]
    split
    · next h =>
      obtain ⟨rfl, hmem⟩ := h
      -- a type before the owner has the method that was found and still is
      cases hfirst : (r.before t owner).findSome? fun a => (r.record a).methods.get? k with
      | none =>
          exact absurd ⟨rfl, hmem, List.findSome?_eq_none_iff.mp hfirst⟩ other
      | some method => exact (findSome?_of_takeWhile hfirst).symm
    · rfl

/-- The duck moves in the new way; the bird, which has a way of its own before
the module, does not. -/
theorem methodDefined_of_moving :
    let r := initial.run waterfowl
    let r' := r.defineMethod ⟨4⟩ "move" (.exactly 1) (.answer .nil)
    r.Reachable
      ∧ r'.findMethod? ⟨7⟩ "move" = some ⟨"move", ⟨4⟩, .exactly 1, .answer .nil⟩
      ∧ r'.findMethod? ⟨6⟩ "move" = some ⟨"move", ⟨6⟩, .exactly 0, .answer .nil⟩
      ∧ MethodDefined r r' ⟨"move", ⟨4⟩, .exactly 1, .answer .nil⟩ := by
  intro r r'
  exact ⟨reachable_waterfowl, by rfl, by rfl,
    methodDefined_of_reachable reachable_waterfowl _ _ _ _⟩

-- ====================================================== classes among ancestors

namespace WellFormed

variable (wf : r.WellFormed)

include wf

/-- A class above a class, but not the class itself, is above its superclass. -/
theorem mem_ancestors_super {t u c : TypeId} (super : (r.record t).superclass = some u)
    (class_ : (r.record c).kind = .classType) (ne : c ≠ t) (mem : c ∈ r.ancestors t) :
    c ∈ r.ancestors u := by
  rw [wf.mem_ancestors_iff_links (has_of_superclass super)] at mem
  rw [wf.mem_ancestors_iff_links (wf.superclass_some super).2.1]
  rcases mem.cases_head with heq | ⟨v, super' | mixed, way⟩
  · exact absurd heq.symm ne
  · cases super.symm.trans super'
    exact way
  · -- what is mixed in leads to modules alone
    have module_ := (wf.includes_module mixed).2
    rw [wf.module_of_reaches module_ ((wf.links_of_module module_).mp way)] at class_
    cases class_

/-- What is above `Module` is above `Class`. -/
theorem ancestors_meta_of_module {a : TypeId} (mem : a ∈ r.ancestors Core.moduleType) :
    a ∈ r.ancestors Core.classType := by
  have hmodule : r.Has Core.moduleType := wf.has_core (by decide)
  have hclass : r.Has Core.classType := wf.has_core (by decide)
  rw [wf.mem_ancestors_iff_links hmodule] at mem
  rw [wf.mem_ancestors_iff_links hclass]
  exact .head (.inl wf.meta_superclass) mem

end WellFormed

-- ============================================ the singleton type of a plain object

namespace Mirrored

variable (wf : r.WellFormed) (mirrored : r.Mirrored) {o : ObjectId} {s : TypeId}
  (attached : (r.record s).attached = some o) (plain : r.denotes? o = none)

include wf mirrored attached plain

/-- The object of a type has the singleton type of a plain object above it only if
all class objects do. -/
theorem mem_ancestors_classType : ∀ {chain : List TypeId} {t q : TypeId}, r.Ascends t chain →
    (r.cell (r.objectOf t)).singleton = some q → s ∈ r.ancestors q →
      s ∈ r.ancestors Core.classType := by
  have hclass := (wf.singleton_class (mirrored.singleton_iff.mpr attached)).2
  intro chain
  induction chain with
  | nil => intro t q ascends; cases ascends.head
  | cons a rest ih =>
      intro t q ascends linked mem
      obtain rfl : a = t := Option.some_inj.mp ascends.head
      have has := ascends.has a List.mem_cons_self
      have hdenotes : r.denotes? (r.objectOf a) = some a := wf.object_denotes has
      have hattached := mirrored.singleton_iff.mp linked
      have hne : s ≠ q := by
        rintro rfl
        rw [attached, Option.some_inj] at hattached
        rw [← hattached, plain] at hdenotes
        cases hdenotes
      obtain ⟨p, hasked, hsuper⟩ := mirrored.superclass_some hattached
      have habove := wf.mem_ancestors_super hsuper hclass hne mem
      rcases ascends.uncons with ⟨-, top⟩ | ⟨u, rest', hchain, super, above⟩
      · cases hkind : (r.record a).kind with
        | classType =>
            rw [singletonSuper?_of_root hdenotes hkind top, Option.some_inj] at hasked
            rw [hasked]
            exact habove
        | moduleType =>
            rw [singletonSuper?_of_module hdenotes hkind, Option.some_inj] at hasked
            subst hasked
            exact wf.ancestors_meta_of_module habove
      · cases hchain
        rw [singletonSuper?_of_class hdenotes (wf.superclass_some super).1 super] at hasked
        exact ih above hasked habove

/-- An object has the singleton type of another, plain one among its ancestors
only if its class does. -/
theorem mem_ancestors_logicalType {p : ObjectId} (holds : r.Holds p) (ne : p ≠ o)
    (mem : s ∈ r.ancestors (r.cell p).metaType) : s ∈ r.ancestors (r.cell p).logicalType := by
  have hclass := (wf.singleton_class (mirrored.singleton_iff.mpr attached)).2
  cases hs : (r.cell p).singleton with
  | none =>
      unfold HeapObject.metaType at mem
      rw [hs] at mem
      exact mem
  | some q =>
      unfold HeapObject.metaType at mem
      rw [hs, Option.getD_some] at mem
      have hattached := mirrored.singleton_iff.mp hs
      have hne : s ≠ q := by
        rintro rfl
        rw [attached, Option.some_inj] at hattached
        exact ne hattached.symm
      obtain ⟨u, hasked, hsuper⟩ := mirrored.superclass_some hattached
      have habove := wf.mem_ancestors_super hsuper hclass hne mem
      cases hd : r.denotes? p with
      | none =>
          rw [singletonSuper?_of_object hd, Option.some_inj] at hasked
          rw [hasked]
          exact habove
      | some t =>
          obtain ⟨has, rfl⟩ := wf.denotes_object hd
          rw [wf.object_logical has]
          cases hkind : (r.record t).kind with
          | moduleType =>
              rw [singletonSuper?_of_module hd hkind, Option.some_inj] at hasked
              subst hasked
              exact habove
          | classType =>
              obtain ⟨chain, ascends⟩ := wf.exists_ascends has
              exact mirrored.mem_ancestors_classType wf attached plain ascends hs mem

end Mirrored

end ObjectModel.Registry
