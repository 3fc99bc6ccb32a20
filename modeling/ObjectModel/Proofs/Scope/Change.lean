/-
How activations change.

All that code does to activations is made of five changes: a new layout, a new
frame, a new slot, a registered special slot, a new record
(`Activations.Change`). Each keeps the activations sound, and none takes the
special slot from a layout or its version back.

The version of a layout is to tell whether the special slot came to it. It does
if every layout is orderly, that is, if none has a slot of the special slot's
name but the special slot itself: registering the slot then adds one, and moves
the version. In a layout that is not orderly the slot is found and registered,
and the version stays.
-/
import ObjectModel.Proofs.Places
import ObjectModel.Scope.Action

namespace ObjectModel

-- =============================================================== layouts

namespace FrameLayout

variable {l l' l'' : FrameLayout}

/-- The special slot's name is not in use before the slot is registered. -/
def Orderly (l : FrameLayout) : Prop := l.special = none → specialSlotName ∉ l.slots

/-- One layout is another at a later time. -/
structure Later (l l' : FrameLayout) : Prop where
  special : l.hasSpecial = true → l'.hasSpecial = true
  version : l.version ≤ l'.version

/-- One layout is another at a later time, and its version tells whether the
special slot was registered in between. -/
structure Marked (l l' : FrameLayout) : Prop extends Later l l' where
  marks : l'.version = l.version → l'.hasSpecial = l.hasSpecial

theorem Later.refl (l : FrameLayout) : Later l l := ⟨id, Nat.le_refl _⟩

theorem Later.trans (h : Later l l') (h' : Later l' l'') : Later l l'' :=
  ⟨fun hs => h'.special (h.special hs), Nat.le_trans h.version h'.version⟩

theorem Marked.refl (l : FrameLayout) : Marked l l := ⟨.refl l, fun _ => rfl⟩

theorem Marked.trans (h : Marked l l') (h' : Marked l' l'') : Marked l l'' := by
  refine ⟨h.toLater.trans h'.toLater, fun same => ?_⟩
  -- the version only grows, so it stood still on both halves of the way
  have hle := h.version
  have hle' := h'.version
  have hfirst : l'.version = l.version := by omega
  have hsecond : l''.version = l'.version := by omega
  exact (h'.marks hsecond).trans (h.marks hfirst)

/-- A slot is found, or added with a new version. -/
theorem addSlot_cases (l : FrameLayout) (name : String) :
    ((l.addSlot name).2 = l ∧ name ∈ l.slots)
      ∨ (l.addSlot name).2 = { l with slots := l.slots ++ [name], version := l.version + 1 } := by
  unfold addSlot
  cases hfind : l.findSlot? name with
  | none => exact .inr rfl
  | some index =>
      refine .inl ⟨rfl, ?_⟩
      obtain ⟨hlt, hname, -⟩ := List.findIdx?_eq_some_iff_getElem.mp hfind
      rw [← eq_of_beq hname]
      exact List.getElem_mem hlt

@[simp] theorem special_addSlot (l : FrameLayout) (name : String) :
    (l.addSlot name).2.special = l.special := by
  unfold addSlot
  cases l.findSlot? name <;> rfl

@[simp] theorem hasSpecial_addSlot (l : FrameLayout) (name : String) :
    (l.addSlot name).2.hasSpecial = l.hasSpecial := by
  unfold hasSpecial
  rw [special_addSlot]

theorem version_le_addSlot (l : FrameLayout) (name : String) :
    l.version ≤ (l.addSlot name).2.version := by
  rcases l.addSlot_cases name with ⟨h, -⟩ | h
  · exact Nat.le_of_eq (congrArg version h).symm
  · rw [h]
    exact Nat.le_succ _

theorem marked_addSlot (l : FrameLayout) (name : String) : Marked l (l.addSlot name).2 where
  special h := by rw [hasSpecial_addSlot, h]
  version := l.version_le_addSlot name
  marks _ := l.hasSpecial_addSlot name

/-- A slot of another name, or in a layout that has the special slot, leaves
the layout orderly. -/
theorem Orderly.addSlot (orderly : l.Orderly) {name : String}
    (h : name = specialSlotName → l.hasSpecial = true) : (l.addSlot name).2.Orderly := by
  intro hnone
  rw [special_addSlot] at hnone
  rcases l.addSlot_cases name with ⟨heq, -⟩ | heq
  · rw [heq]
    exact orderly hnone
  · rw [heq]
    intro hmem
    rcases List.mem_append.mp hmem with hold | hnew
    · exact orderly hnone hold
    · have hspecial := h (List.mem_singleton.mp hnew).symm
      rw [hasSpecial, hnone] at hspecial
      cases hspecial

theorem hasSpecial_registerSpecial (l : FrameLayout) : l.registerSpecial.hasSpecial = true := by
  unfold registerSpecial
  cases hs : l.special with
  | none => rfl
  | some slot =>
      show l.special.isSome = true
      rw [hs]
      rfl

theorem later_registerSpecial (l : FrameLayout) : Later l l.registerSpecial where
  special _ := l.hasSpecial_registerSpecial
  version := by
    unfold registerSpecial
    cases l.special with
    | none => exact l.version_le_addSlot specialSlotName
    | some slot => exact Nat.le_refl _

theorem orderly_registerSpecial (l : FrameLayout) : l.registerSpecial.Orderly := by
  intro hnone
  have hspecial := l.hasSpecial_registerSpecial
  rw [hasSpecial, hnone] at hspecial
  cases hspecial

/-- To register the special slot in an orderly layout is to add it. -/
theorem Orderly.marked_registerSpecial (orderly : l.Orderly) : Marked l l.registerSpecial := by
  refine ⟨l.later_registerSpecial, fun same => ?_⟩
  rw [hasSpecial_registerSpecial]
  cases hs : l.special with
  | some slot =>
      rw [hasSpecial, hs]
      rfl
  | none =>
      have hversion : l.registerSpecial.version = (l.addSlot specialSlotName).2.version := by
        unfold registerSpecial
        rw [hs]
      rcases l.addSlot_cases specialSlotName with ⟨-, hmem⟩ | hadd
      · exact absurd hmem (orderly hs)
      · rw [hversion, hadd] at same
        exact absurd same (Nat.succ_ne_self _)

theorem orderly_declared (name : String) (special : Bool) : (declared name special).Orderly := by
  unfold declared
  split
  · exact orderly_registerSpecial _
  · intro _ hmem
    cases hmem

end FrameLayout

-- =========================================================== activations

namespace Activations

variable (a : Activations)

/-- Frames are laid out and declared inside older ones, and each has a record
of its own. -/
structure Sound (a : Activations) : Prop where
  laidOut : ∀ {f : FrameId}, a.HasFrame f → a.HasLayout (a.frame f).layout
  declared : ∀ {f g : FrameId}, (a.frame f).declaration = some g → g.index < f.index
  stored : ∀ {f : FrameId} {s : RecordId}, (a.frame f).storage = some s →
    s.index < a.records.length
  apart : ∀ {f g : FrameId} {s : RecordId}, (a.frame f).storage = some s →
    (a.frame g).storage = some s → f = g

/-- Every layout is orderly. -/
def Orderly (a : Activations) : Prop := ∀ l, a.HasLayout l → (a.layout l).Orderly

/-- One change, where `slot` says which slots may be added to a layout. -/
inductive Change (slot : FrameLayout → String → Prop) : Activations → Activations → Prop
  | addLayout (a : Activations) (name : String) (special : Bool) :
      Change slot a (a.addLayout (.declared name special)).2
  | addFrame {a : Activations} {l : LayoutId} {declaration : Option FrameId}
      (has : a.HasLayout l) (around : ∀ f ∈ declaration, a.HasFrame f) :
      Change slot a (a.addFrame l declaration).2
  | addSlot {a : Activations} {l : LayoutId} {name : String} (has : a.HasLayout l)
      (allowed : slot (a.layout l) name) : Change slot a (a.addSlot l name)
  | register {a : Activations} {l : LayoutId} (has : a.HasLayout l) :
      Change slot a (a.modifyLayout l .registerSpecial)
  | materialize {a : Activations} {f : FrameId} (t : ThreadId) (has : a.HasFrame f) :
      Change slot a (a.materialize f t).2

/-- Some changes. -/
inductive Evolves (slot : FrameLayout → String → Prop) : Activations → Activations → Prop
  | refl (a : Activations) : Evolves slot a a
  | step {a a' a'' : Activations} : Evolves slot a a' → Change slot a' a'' → Evolves slot a a''

/-- Any slot in any layout. -/
def anySlot (_ : FrameLayout) (_ : String) : Prop := True

/-- Any slot but an unregistered special slot. -/
def orderlySlot (l : FrameLayout) (name : String) : Prop :=
  name = specialSlotName → l.hasSpecial = true

-- ------------------------------------------------------------ the accessors

theorem frame_of_length_le {f : FrameId} (h : a.frames.length ≤ f.index) :
    a.frame f = default := by
  unfold frame
  rw [List.getD_eq_getElem?_getD, List.getElem?_eq_none h, Option.getD_none]

theorem hasFrame_of_declaration {f g : FrameId} (h : (a.frame f).declaration = some g) :
    a.HasFrame f := by
  rcases Nat.lt_or_ge f.index a.frames.length with hlt | hge
  · exact hlt
  · rw [frame_of_length_le a hge] at h
    cases h

theorem layout_addLayout {l : LayoutId} (has : a.HasLayout l) (x : FrameLayout) :
    (a.addLayout x).2.layout l = a.layout l := by
  unfold layout addLayout
  exact getD_concat_of_ne _ _ _ (Nat.ne_of_lt has)

theorem layout_addLayout_self (x : FrameLayout) :
    (a.addLayout x).2.layout ⟨a.layouts.length⟩ = x := by
  unfold layout addLayout
  exact getD_concat_self ..

/-- A change reaches the layout that it is made at, if there is one. -/
theorem layout_modifyLayout (l k : LayoutId) (change : FrameLayout → FrameLayout) :
    (a.modifyLayout l change).layout k
      = if k = l ∧ a.HasLayout l then change (a.layout l) else a.layout k := by
  obtain ⟨i⟩ := l
  obtain ⟨j⟩ := k
  simp only [LayoutId.mk.injEq]
  exact getD_modify ..

theorem hasLayout_modifyLayout {k : LayoutId} (l : LayoutId)
    (change : FrameLayout → FrameLayout) :
    (a.modifyLayout l change).HasLayout k ↔ a.HasLayout k := by
  unfold HasLayout modifyLayout
  rw [List.length_modify]

theorem frame_addFrame (l : LayoutId) (declaration : Option FrameId) (f : FrameId) :
    (a.addFrame l declaration).2.frame f
      = if f.index = a.frames.length then ⟨l, declaration, none⟩ else a.frame f := by
  unfold frame addFrame
  split
  · next h =>
      rw [h]
      exact getD_concat_self ..
  · next h => exact getD_concat_of_ne _ _ _ h

theorem materialize_of_some {f : FrameId} {s : RecordId} (t : ThreadId)
    (h : (a.frame f).storage = some s) : a.materialize f t = (s, a) := by
  unfold materialize
  rw [h]

/-- A frame without a record gets a new one. -/
theorem frame_materialize {f : FrameId} (t : ThreadId) (h : (a.frame f).storage = none)
    (g : FrameId) :
    (a.materialize f t).2.frame g
      = if g = f ∧ a.HasFrame f then { a.frame f with storage := some ⟨a.records.length⟩ }
        else a.frame g := by
  unfold materialize
  rw [h]
  obtain ⟨i⟩ := f
  obtain ⟨j⟩ := g
  simp only [FrameId.mk.injEq]
  exact getD_modify ..

/-- A record changes nothing else of a frame. -/
theorem frame_materialize_kept {α : Type} (part : Frame → α) {f : FrameId} (t : ThreadId)
    (kept : ∀ x s, part { x with storage := s } = part x) (g : FrameId) :
    part ((a.materialize f t).2.frame g) = part (a.frame g) := by
  cases hs : (a.frame f).storage with
  | some s => rw [materialize_of_some a t hs]
  | none =>
      rw [frame_materialize a t hs]
      split
      · next h => rw [h.1, kept]
      · rfl

theorem layouts_materialize (f : FrameId) (t : ThreadId) :
    (a.materialize f t).2.layouts = a.layouts := by
  unfold materialize
  cases (a.frame f).storage <;> rfl

theorem hasFrame_materialize {f : FrameId} (t : ThreadId) {g : FrameId} :
    (a.materialize f t).2.HasFrame g ↔ a.HasFrame g := by
  unfold HasFrame materialize
  cases (a.frame f).storage with
  | some s => rfl
  | none =>
      show g.index < (a.frames.modify f.index _).length ↔ g.index < a.frames.length
      rw [List.length_modify]

-- ------------------------------------------------- soundness of each change

variable {a a' a'' : Activations}

theorem sound_empty : empty.Sound where
  laidOut h := absurd h (Nat.not_lt_zero _)
  declared h := by cases h
  stored h := by cases h
  apart h := by cases h

theorem Sound.hasFrame_declaration (sound : a.Sound) {f g : FrameId}
    (h : (a.frame f).declaration = some g) : a.HasFrame g :=
  Nat.lt_trans (sound.declared h) (a.hasFrame_of_declaration h)

theorem Sound.addLayout (sound : a.Sound) (x : FrameLayout) : (a.addLayout x).2.Sound where
  laidOut {f} has := by
    have hlaid := sound.laidOut (f := f) has
    show (a.frame f).layout.index < (a.layouts ++ [x]).length
    rw [List.length_append]
    exact Nat.lt_add_right _ hlaid
  declared := sound.declared
  stored := sound.stored
  apart := sound.apart

theorem Sound.modifyLayout (sound : a.Sound) (l : LayoutId) (change : FrameLayout → FrameLayout) :
    (a.modifyLayout l change).Sound where
  laidOut has := (hasLayout_modifyLayout a l change).mpr (sound.laidOut has)
  declared := sound.declared
  stored := sound.stored
  apart := sound.apart

theorem Sound.addFrame (sound : a.Sound) {l : LayoutId} {declaration : Option FrameId}
    (has : a.HasLayout l) (around : ∀ f ∈ declaration, a.HasFrame f) :
    (a.addFrame l declaration).2.Sound where
  laidOut {f} h := by
    rw [frame_addFrame]
    split
    · exact has
    · next hne =>
        have hlt : f.index < (a.frames ++ [(⟨l, declaration, none⟩ : Frame)]).length := h
        rw [List.length_append, List.length_singleton] at hlt
        exact sound.laidOut (show f.index < a.frames.length by omega)
  declared {f g} h := by
    rw [frame_addFrame] at h
    split at h
    · next heq =>
        have hlt : g.index < a.frames.length := around g h
        omega
    · exact sound.declared h
  stored {f s} h := by
    rw [frame_addFrame] at h
    split at h
    · cases h
    · exact sound.stored h
  apart {f g s} hf hg := by
    rw [frame_addFrame] at hf hg
    split at hf
    · cases hf
    · split at hg
      · cases hg
      · exact sound.apart hf hg

/-- The records that frames have after one got a new one: the new one is beyond
all the others. -/
theorem Sound.storage_materialize (sound : a.Sound) {f g : FrameId} {s : RecordId}
    (t : ThreadId) (free : (a.frame f).storage = none)
    (h : ((a.materialize f t).2.frame g).storage = some s) :
    (g = f ∧ s = ⟨a.records.length⟩)
      ∨ (s.index < a.records.length ∧ (a.frame g).storage = some s) := by
  rw [frame_materialize a t free] at h
  split at h
  · next hg =>
      obtain rfl := Option.some.inj h
      exact .inl ⟨hg.1, rfl⟩
  · exact .inr ⟨sound.stored h, h⟩

theorem Sound.materialize (sound : a.Sound) (f : FrameId) (t : ThreadId) :
    (a.materialize f t).2.Sound := by
  cases free : (a.frame f).storage with
  | some s =>
      rw [materialize_of_some a t free]
      exact sound
  | none =>
      have hrecords : (a.materialize f t).2.records.length = a.records.length + 1 := by
        unfold Activations.materialize
        rw [free]
        exact List.length_append
      refine ⟨fun {g} has => ?_, fun {g k} h => ?_, fun {g s} h => ?_, fun {g k s} hg hk => ?_⟩
      · rw [HasLayout, layouts_materialize,
          frame_materialize_kept a Frame.layout t fun _ _ => rfl]
        exact sound.laidOut ((hasFrame_materialize a t).mp has)
      · rw [frame_materialize_kept a Frame.declaration t fun _ _ => rfl] at h
        exact sound.declared h
      · rw [hrecords]
        rcases sound.storage_materialize t free h with ⟨-, rfl⟩ | ⟨hlt, -⟩
        · exact Nat.lt_succ_self _
        · exact Nat.lt_succ_of_lt hlt
      · rcases sound.storage_materialize t free hg with ⟨rfl, rfl⟩ | ⟨hlt, hold⟩
        · rcases sound.storage_materialize t free hk with ⟨rfl, -⟩ | ⟨hlt, -⟩
          · rfl
          · exact absurd hlt (Nat.lt_irrefl _)
        · rcases sound.storage_materialize t free hk with ⟨rfl, rfl⟩ | ⟨-, hold'⟩
          · exact absurd hlt (Nat.lt_irrefl _)
          · exact sound.apart hold hold'

theorem Change.sound {slot : FrameLayout → String → Prop} (change : Change slot a a')
    (sound : a.Sound) : a'.Sound := by
  cases change with
  | addLayout name special => exact sound.addLayout _
  | addFrame has around => exact sound.addFrame has around
  | addSlot has allowed => exact sound.modifyLayout _ _
  | register has => exact sound.modifyLayout _ _
  | materialize t has => exact sound.materialize _ t

theorem Evolves.sound {slot : FrameLayout → String → Prop} (evolves : Evolves slot a a')
    (sound : a.Sound) : a'.Sound := by
  induction evolves with
  | refl => exact sound
  | step _ change ih => exact change.sound ih

-- ---------------------------------------------------- layouts as time passes

/-- No layout is lost, and each is related to what it was. -/
structure Follows (R : FrameLayout → FrameLayout → Prop) (a a' : Activations) : Prop where
  length_le : a.layouts.length ≤ a'.layouts.length
  layout : ∀ {l : LayoutId}, a.HasLayout l → R (a.layout l) (a'.layout l)

namespace Follows

variable {R : FrameLayout → FrameLayout → Prop}

theorem has (follows : Follows R a a') {l : LayoutId} (has : a.HasLayout l) : a'.HasLayout l :=
  Nat.lt_of_lt_of_le has follows.length_le

theorem of_layouts_eq (refl : ∀ x, R x x) (h : a'.layouts = a.layouts) : Follows R a a' where
  length_le := Nat.le_of_eq (congrArg List.length h).symm
  layout {l} _ := by
    unfold Activations.layout
    rw [h]
    exact refl _

theorem modifyLayout (refl : ∀ x, R x x) {l : LayoutId} {change : FrameLayout → FrameLayout}
    (here : R (a.layout l) (change (a.layout l))) : Follows R a (a.modifyLayout l change) where
  length_le := by
    unfold Activations.modifyLayout
    exact Nat.le_of_eq (List.length_modify ..).symm
  layout {k} _ := by
    rw [layout_modifyLayout]
    split
    · next h => rw [h.1]; exact here
    · exact refl _

/-- A change relates the layouts as its own edits do. -/
theorem of_change {slot : FrameLayout → String → Prop} (refl : ∀ x, R x x)
    (addSlot : ∀ x name, R x (x.addSlot name).2)
    (register : ∀ l, a.HasLayout l → R (a.layout l) (a.layout l).registerSpecial)
    (change : Change slot a a') : Follows R a a' := by
  cases change with
  | addLayout name special =>
      refine ⟨?_, fun has => ?_⟩
      · unfold Activations.addLayout
        rw [List.length_append]
        exact Nat.le_add_right _ _
      · rw [layout_addLayout a has]
        exact refl _
  | addFrame has around => exact of_layouts_eq refl rfl
  | addSlot has allowed => exact modifyLayout refl (addSlot _ _)
  | register has => exact modifyLayout refl (register _ has)
  | @materialize f t has =>
      exact of_layouts_eq refl (layouts_materialize a f t)

theorem trans (htrans : ∀ {x y z}, R x y → R y z → R x z) (h : Follows R a a')
    (h' : Follows R a' a'') : Follows R a a'' where
  length_le := Nat.le_trans h.length_le h'.length_le
  layout has := htrans (h.layout has) (h'.layout (h.has has))

end Follows

/-- No layout loses its special slot or an older version of itself. -/
theorem Evolves.later {slot : FrameLayout → String → Prop} (evolves : Evolves slot a a') :
    Follows FrameLayout.Later a a' := by
  induction evolves with
  | refl => exact .of_layouts_eq .refl rfl
  | step _ change ih =>
      exact ih.trans .trans (.of_change .refl (fun x name => (x.marked_addSlot name).toLater)
        (fun l _ => (FrameLayout.later_registerSpecial _)) change)

theorem Orderly.modifyLayout (orderly : a.Orderly) {l : LayoutId}
    {change : FrameLayout → FrameLayout} (here : (change (a.layout l)).Orderly) :
    (a.modifyLayout l change).Orderly := by
  intro k has
  rw [layout_modifyLayout]
  split
  · exact here
  · exact orderly k ((hasLayout_modifyLayout a l change).mp has)

/-- An orderly change keeps all layouts orderly. -/
theorem Change.orderly (change : Change orderlySlot a a') (orderly : a.Orderly) : a'.Orderly := by
  cases change with
  | addLayout name special =>
      intro l has
      have hlt : l.index < (a.layouts ++ [FrameLayout.declared name special]).length := has
      rw [List.length_append, List.length_singleton] at hlt
      rcases Nat.lt_or_ge l.index a.layouts.length with hold | hnew
      · rw [layout_addLayout a hold]
        exact orderly l hold
      · obtain rfl : l = ⟨a.layouts.length⟩ := by
          obtain ⟨i⟩ := l
          rw [LayoutId.mk.injEq]
          exact Nat.le_antisymm (Nat.le_of_lt_succ hlt) hnew
        rw [layout_addLayout_self]
        exact FrameLayout.orderly_declared name special
  | addFrame has around => exact orderly
  | addSlot has allowed => exact orderly.modifyLayout ((orderly _ has).addSlot allowed)
  | register has => exact orderly.modifyLayout (FrameLayout.orderly_registerSpecial _)
  | materialize t has =>
      unfold Orderly HasLayout layout
      rw [layouts_materialize]
      exact orderly

/-- After orderly changes the version of a layout tells whether the special
slot came to it. -/
theorem Evolves.marked (evolves : Evolves orderlySlot a a') (orderly : a.Orderly) :
    Follows FrameLayout.Marked a a' ∧ a'.Orderly := by
  induction evolves with
  | refl => exact ⟨.of_layouts_eq .refl rfl, orderly⟩
  | step _ change ih =>
      obtain ⟨hfollows, horderly⟩ := ih
      refine ⟨hfollows.trans .trans (.of_change .refl FrameLayout.marked_addSlot
        (fun l has => (horderly l has).marked_registerSpecial) change), change.orderly horderly⟩

end Activations

end ObjectModel
