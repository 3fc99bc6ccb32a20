/-
A record stays where it was made.

Who owns the record of a frame is found out anew at each request, from layouts
that change between requests. It is the same frame each time if layouts are
kept apart (`Apart`): no layout is that of a frame declared inside another one
and that of an outermost frame as well. For after a layout was made, the
special slot comes to it at an outermost frame only (`Settles.special`). Then
the layouts of inner frames never get it: a walk stops where it stopped before
(`Walks.of_settles`), and so does a way that a site remembers (`Clear`), whatever
slots were added.

Nothing is asked of the names of slots. A layout whose slot of the special
slot's name is adopted is that of an outermost frame, and no way leads past it.
-/
import Mathlib.Logic.Relation
import ObjectModel.Proofs.Scope.Site

namespace ObjectModel

namespace Activations

variable {a a' a'' : Activations} {f g owner : FrameId} {path : Path} {l : LayoutId}

-- ======================================================= how frames are laid

/-- Frames of one layout are all declared inside others, or none of them is. -/
def Apart (a : Activations) : Prop :=
  ∀ x ∈ a.frames, ∀ y ∈ a.frames, x.layout = y.layout →
    x.declaration.isSome = y.declaration.isSome

instance (a : Activations) : Decidable a.Apart :=
  inferInstanceAs (Decidable (∀ x ∈ a.frames, ∀ y ∈ a.frames, _ → _))

/-- The layout is that of an outermost frame. -/
def Outer (a : Activations) (l : LayoutId) : Prop :=
  ∃ f, a.HasFrame f ∧ (a.frame f).layout = l ∧ (a.frame f).declaration = none

/-- The layout is that of a frame inside another one. -/
def Inner (a : Activations) (l : LayoutId) : Prop :=
  ∃ f g, (a.frame f).layout = l ∧ (a.frame f).declaration = some g

/-- A frame is another one, or is declared inside it, directly or through
others. -/
def Within (a : Activations) : FrameId → FrameId → Prop :=
  Relation.ReflTransGen fun f g => (a.frame f).declaration = some g

/-- Where the walk from a frame ends. -/
def ownerOf (a : Activations) (f : FrameId) : FrameId := (walk (a.frames.length + 1) a f).1

theorem frame_eq_getElem {i : Nat} (h : i < a.frames.length) : a.frame ⟨i⟩ = a.frames[i] := by
  unfold frame
  rw [List.getD_eq_getElem?_getD, List.getElem?_eq_getElem h, Option.getD_some]

theorem frame_mem (has : a.HasFrame f) : a.frame f ∈ a.frames := by
  have hframe : a.frame f = a.frames[f.index] := frame_eq_getElem has
  rw [hframe]
  exact List.getElem_mem has

theorem Apart.not_outer (apart : a.Apart) (inner : a.Inner l) : ¬ a.Outer l := by
  rintro ⟨g, has, rfl, outer⟩
  obtain ⟨f, around, hlayout, hdecl⟩ := inner
  have hsame := apart _ (frame_mem (a.hasFrame_of_declaration hdecl)) _ (frame_mem has) hlayout
  rw [hdecl, outer] at hsame
  cases hsame

theorem hasFrame_of_storage {s : RecordId} (h : (a.frame f).storage = some s) :
    a.HasFrame f := by
  rcases Nat.lt_or_ge f.index a.frames.length with hlt | hge
  · exact hlt
  · rw [frame_of_length_le a hge] at h
    cases h

-- ============================================================ what time keeps

/-- Frames keep their places and their records, and the special slot comes to
layouts of outermost frames only. -/
structure Settles (a a' : Activations) : Prop where
  frames_le : a.frames.length ≤ a'.frames.length
  later : Follows FrameLayout.Later a a'
  laid : ∀ {f : FrameId}, a.HasFrame f → (a'.frame f).layout = (a.frame f).layout
  declared : ∀ {f : FrameId}, a.HasFrame f →
    (a'.frame f).declaration = (a.frame f).declaration
  stored : ∀ {f : FrameId} {s : RecordId}, (a.frame f).storage = some s →
    (a'.frame f).storage = some s
  special : ∀ {l : LayoutId}, a.HasLayout l →
    (a'.layout l).hasSpecial = (a.layout l).hasSpecial ∨ a'.Outer l

namespace Settles

theorem hasFrame (settles : Settles a a') (has : a.HasFrame f) : a'.HasFrame f :=
  Nat.lt_of_lt_of_le has settles.frames_le

theorem outer (settles : Settles a a') (outer : a.Outer l) : a'.Outer l := by
  obtain ⟨f, has, rfl, hdecl⟩ := outer
  exact ⟨f, settles.hasFrame has, settles.laid has, (settles.declared has).trans hdecl⟩

theorem inner (settles : Settles a a') (inner : a.Inner l) : a'.Inner l := by
  obtain ⟨f, g, rfl, hdecl⟩ := inner
  have has := a.hasFrame_of_declaration hdecl
  exact ⟨f, g, settles.laid has, (settles.declared has).trans hdecl⟩

theorem within (settles : Settles a a') (within : a.Within f g) : a'.Within f g := by
  refine Relation.ReflTransGen.mono (fun x y hdecl => ?_) f g within
  exact (settles.declared (a.hasFrame_of_declaration hdecl)).trans hdecl

/-- Layouts that were kept apart in the end were so before. -/
theorem apart (settles : Settles a a') (apart : a'.Apart) : a.Apart := by
  -- a frame of a list is the frame of its place, and keeps the place
  have hkept : ∀ x ∈ a.frames, ∃ x' ∈ a'.frames, x'.layout = x.layout
      ∧ x'.declaration = x.declaration := by
    intro x mem
    obtain ⟨i, hlt, rfl⟩ := List.getElem_of_mem mem
    have has : a.HasFrame ⟨i⟩ := hlt
    rw [← frame_eq_getElem hlt]
    exact ⟨a'.frame ⟨i⟩, frame_mem (settles.hasFrame has), settles.laid has,
      settles.declared has⟩
  intro x memx y memy same
  obtain ⟨x', memx', hlayoutx, hdeclx⟩ := hkept x memx
  obtain ⟨y', memy', hlayouty, hdecly⟩ := hkept y memy
  rw [← hdeclx, ← hdecly]
  exact apart x' memx' y' memy' (by rw [hlayoutx, hlayouty, same])

theorem refl (a : Activations) : Settles a a where
  frames_le := Nat.le_refl _
  later := .of_layouts_eq .refl rfl
  laid _ := rfl
  declared _ := rfl
  stored h := h
  special _ := .inl rfl

theorem trans (h : Settles a a') (h' : Settles a' a'') : Settles a a'' where
  frames_le := Nat.le_trans h.frames_le h'.frames_le
  later := h.later.trans .trans h'.later
  laid has := (h'.laid (h.hasFrame has)).trans (h.laid has)
  declared has := (h'.declared (h.hasFrame has)).trans (h.declared has)
  stored hs := h'.stored (h.stored hs)
  special has := by
    rcases h'.special (h.later.has has) with heq | hout
    · rcases h.special has with heq' | hout
      · exact .inl (heq.trans heq')
      · exact .inr (h'.outer hout)
    · exact .inr hout

-- ------------------------------------------------------------- each change

/-- Where frames are the same, only the special slots are left to look at. -/
theorem of_frames_eq (frames : a'.frames = a.frames) (later : Follows FrameLayout.Later a a')
    (special : ∀ {l : LayoutId}, a.HasLayout l →
      (a'.layout l).hasSpecial = (a.layout l).hasSpecial ∨ a'.Outer l) : Settles a a' := by
  have hframe : a'.frame = a.frame := by
    funext f
    unfold frame
    rw [frames]
  refine ⟨Nat.le_of_eq (congrArg List.length frames).symm, later, ?_, ?_, ?_, special⟩
  all_goals
    intros
    rw [hframe]
    try assumption

theorem addLayout (a : Activations) (name : String) (special : Bool) :
    Settles a (a.addLayout (.declared name special)).2 := by
  have hchange : Change anySlot a _ := .addLayout a name special
  refine of_frames_eq rfl (Evolves.later (.step (.refl _) hchange)) fun has => .inl ?_
  rw [layout_addLayout a has]

theorem addSlot (a : Activations) (l : LayoutId) (name : String) :
    Settles a (a.addSlot l name) := by
  refine of_frames_eq rfl (.modifyLayout .refl (FrameLayout.marked_addSlot _ _).toLater)
    fun {k} _ => .inl ?_
  unfold Activations.addSlot
  rw [layout_modifyLayout]
  split
  · next h => rw [FrameLayout.hasSpecial_addSlot, h.1]
  · rfl

/-- The special slot is registered at an outermost frame. -/
theorem register (has : a.HasFrame f) (outer : (a.frame f).declaration = none) :
    Settles a (a.modifyLayout (a.frame f).layout .registerSpecial) := by
  refine of_frames_eq rfl (.modifyLayout .refl (FrameLayout.later_registerSpecial _))
    fun {k} _ => ?_
  rw [layout_modifyLayout]
  split
  · next h => exact .inr ⟨f, has, h.1.symm, outer⟩
  · exact .inl rfl

theorem addFrame (a : Activations) (l : LayoutId) (declaration : Option FrameId) :
    Settles a (a.addFrame l declaration).2 := by
  have hframe : ∀ {f : FrameId}, a.HasFrame f →
      (a.addFrame l declaration).2.frame f = a.frame f := by
    intro f has
    rw [frame_addFrame, if_neg (Nat.ne_of_lt has)]
  refine ⟨?_, .of_layouts_eq .refl rfl, fun has => ?_, fun has => ?_, fun hs => ?_,
    fun _ => .inl rfl⟩
  · unfold Activations.addFrame
    rw [List.length_append]
    exact Nat.le_add_right _ _
  · rw [hframe has]
  · rw [hframe has]
  · rw [hframe (hasFrame_of_storage hs)]
    exact hs

theorem materialize (a : Activations) (f : FrameId) (t : ThreadId) :
    Settles a (a.materialize f t).2 := by
  refine ⟨?_, .of_layouts_eq .refl (layouts_materialize a f t), fun _ => ?_, fun _ => ?_,
    fun {g} {s} hs => ?_, fun _ => .inl ?_⟩
  · unfold Activations.materialize
    cases (a.frame f).storage with
    | some s => exact Nat.le_refl _
    | none => exact Nat.le_of_eq (List.length_modify ..).symm
  · exact frame_materialize_kept a Frame.layout t (fun _ _ => rfl) _
  · exact frame_materialize_kept a Frame.declaration t (fun _ _ => rfl) _
  · cases free : (a.frame f).storage with
    | some s' =>
        rw [materialize_of_some a t free]
        exact hs
    | none =>
        have hne : g ≠ f := by
          rintro rfl
          rw [free] at hs
          cases hs
        rw [frame_materialize a t free, if_neg fun h => hne h.1]
        exact hs
  · unfold layout
    rw [layouts_materialize]

end Settles

-- ==================================================================== walks

namespace Walks

theorem settles (sound : a.Sound) (has : a.HasFrame f) (walks : Walks a f owner path a') :
    Settles a a' := by
  induction walks with
  | found => exact .refl _
  | outermost plain outer => exact .register has outer
  | outwards plain inner rest ih => exact ih (sound.hasFrame_declaration inner)

theorem within (walks : Walks a f owner path a') : a.Within f owner := by
  induction walks with
  | found => exact .refl
  | outermost => exact .refl
  | outwards plain inner rest ih => exact .head inner ih

/-- A walk stops where it stopped before, if layouts are kept apart. -/
theorem of_settles (sound : a.Sound) (has : a.HasFrame f) (settles : Settles a a')
    (apart : a'.Apart) (walks : Walks a f owner path a'') :
    ∃ path' b, Walks a' f owner path' b := by
  induction walks with
  | @found f special =>
      refine ⟨_, _, .found ?_⟩
      unfold frameLayout
      rw [settles.laid has]
      exact (settles.later.layout (sound.laidOut has)).special special
  | @outermost f plain outer =>
      have houter := (settles.declared has).trans outer
      cases hspecial : (a'.frameLayout f).hasSpecial with
      | true => exact ⟨_, _, .found hspecial⟩
      | false => exact ⟨_, _, .outermost hspecial houter⟩
  | @outwards f g owner path a'' plain inner rest ih =>
      have hinner := (settles.declared has).trans inner
      have hplain : (a'.frameLayout f).hasSpecial = false := by
        unfold frameLayout
        rw [settles.laid has]
        rcases settles.special (sound.laidOut has) with heq | hout
        · exact heq.trans plain
        · exact absurd hout (apart.not_outer ⟨f, g, settles.laid has, hinner⟩)
      obtain ⟨path', b, hrest⟩ := ih (sound.hasFrame_declaration inner)
      exact ⟨_, _, .outwards hplain hinner hrest⟩

end Walks

theorem ownerOf_eq (sound : a.Sound) (has : a.HasFrame f) (walks : Walks a f owner path a') :
    a.ownerOf f = owner := by
  unfold ownerOf
  rw [walk_eq sound walks (Nat.le_of_lt has)]

theorem Settles.storageOf (sound : a.Sound) (has : a.HasFrame f) (t : ThreadId) :
    Settles a (a.storageOf f t).2 := by
  obtain ⟨owner, path, a', hwalks⟩ := exists_walks sound f
  rw [storageOf_eq sound has hwalks]
  exact (hwalks.settles sound has).trans (.materialize _ _ _)

/-- What a frame was asked for it has from then on. -/
theorem storage_materialize (has : a.HasFrame f) (t : ThreadId) :
    ((a.materialize f t).2.frame f).storage = some (a.materialize f t).1 := by
  cases free : (a.frame f).storage with
  | some s =>
      rw [materialize_of_some a t free]
      exact free
  | none =>
      rw [frame_materialize a t free, if_pos ⟨rfl, has⟩]
      unfold materialize
      rw [free]

-- ========================================================== remembered ways

/-- The layouts before the end of a way are those of inner frames, and have no
special slot. -/
def Clear (a : Activations) (path : Path) : Prop :=
  ∀ e ∈ path.dropLast, a.Inner e.1 ∧ (a.layout e.1).hasSpecial = false

theorem Walks.ne_nil (walks : Walks a f owner path a') : path ≠ [] := by
  cases walks with
  | found => exact List.cons_ne_nil _ _
  | outermost => exact List.cons_ne_nil _ _
  | outwards => exact List.cons_ne_nil _ _

theorem Walks.clear (walks : Walks a f owner path a') : Clear a path := by
  induction walks with
  | found =>
      intro e mem
      cases mem
  | outermost =>
      intro e mem
      cases mem
  | @outwards f g owner path a' plain inner rest ih =>
      intro e mem
      rw [List.dropLast_cons_of_ne_nil rest.ne_nil] at mem
      rcases List.mem_cons.mp mem with rfl | mem
      · exact ⟨⟨f, g, rfl, inner⟩, plain⟩
      · exact ih e mem

theorem Clear.of_settles (clear : Clear a path) (sound : a.Sound) (settles : Settles a a')
    (apart : a'.Apart) : Clear a' path := by
  intro e mem
  obtain ⟨inner, plain⟩ := clear e mem
  have hinner := settles.inner inner
  obtain ⟨f, g, hlayout, hdecl⟩ := inner
  have has : a.HasLayout e.1 := by
    rw [← hlayout]
    exact sound.laidOut (a.hasFrame_of_declaration hdecl)
  rcases settles.special has with heq | hout
  · exact ⟨hinner, heq.trans plain⟩
  · exact absurd hout (apart.not_outer hinner)

end Activations

open Activations

namespace Scope

variable {s s' : Scope} {x : Action} {actions : List Action} {f g : FrameId} {r r' : RecordId}
  {i j k : Nat}

-- ================================================================== one action

/-- The frame that an action asks the record of. -/
def Action.frame? : Action → Option FrameId
  | .request f _ | .requestAt _ f _ => some f
  | .addLayout _ _ | .addFrame _ _ | .addSlot _ _ | .openSite _ => none

/-- The record that an action finds. -/
def answer? (s : Scope) : Action → Option RecordId
  | .request f t => some (s.activations.storageOf f t).1
  | .requestAt i f t => (s.sites[i]?).map fun site => (site.answer s.activations f t).1
  | .addLayout _ _ | .addFrame _ _ | .addSlot _ _ | .openSite _ => none

/-- Sites remember ways that are clear. -/
structure Cleared (s : Scope) : Prop extends Sound s where
  clear : ∀ site ∈ s.sites, ∀ path ∈ site.path, Clear s.activations path

theorem activations_act_requestAt {t : ThreadId} {site : StorageSite}
    (here : s.sites[i]? = some site) :
    (s.act (.requestAt i f t)).activations = (site.answer s.activations f t).2 := by
  rw [act_requestAt here rfl]
  rfl

theorem Sound.settles (sound : s.Sound) (valid : x.Valid s) :
    Settles s.activations (s.act x).activations := by
  cases x with
  | addLayout name special => exact .addLayout _ name special
  | addFrame layout declaration => exact .addFrame _ layout declaration
  | addSlot layout name => exact .addSlot _ layout name
  | openSite limits => exact .refl _
  | request f t => exact .storageOf sound.activations valid t
  | requestAt i f t =>
      obtain ⟨hlt, has⟩ := valid
      rw [activations_act_requestAt (List.getElem?_eq_getElem hlt),
        StorageSite.answer_eq sound.activations has]
      split
      · exact .materialize _ _ t
      · exact .storageOf sound.activations has t

theorem Cleared.act (cleared : s.Cleared) (valid : x.Valid s)
    (apart : (s.act x).activations.Apart) : (s.act x).Cleared := by
  have hacts := cleared.toSound.acts anySlot valid fun _ _ _ => trivial
  have hsettles := cleared.toSound.settles valid
  refine ⟨cleared.toSound.of_acts hacts, fun site mem path hpath => ?_⟩
  rcases hacts.paths site mem path hpath with
    ⟨site₀, mem₀, hpath₀⟩ | ⟨f, owner, a', has, hwalks, -⟩
  · exact (cleared.clear site₀ mem₀ path hpath₀).of_settles cleared.activations hsettles apart
  · exact hwalks.clear.of_settles cleared.activations hsettles apart

/-- A request finds what a walk finds, and leaves the activations that the walk
leaves. -/
theorem Cleared.storageOf_eq (cleared : s.Cleared) (valid : x.Valid s)
    (asks : x.frame? = some f) (finds : s.answer? x = some r) :
    s.activations.HasFrame f ∧ ∃ t, s.activations.storageOf f t = (r, (s.act x).activations) := by
  cases x with
  | request g t =>
      cases asks
      cases finds
      exact ⟨valid, t, rfl⟩
  | requestAt i g t =>
      obtain ⟨hlt, has⟩ := valid
      cases asks
      have here := List.getElem?_eq_getElem hlt
      have hmem := List.getElem_mem hlt
      rw [answer?, here] at finds
      cases finds
      refine ⟨has, t, ?_⟩
      rw [activations_act_requestAt here]
      -- a way that is clear has the special slot nowhere before its end
      refine ((StorageSite.answer_eq_iff cleared.activations has
        (cleared.trails _ hmem)).mpr ?_).symm
      rintro ⟨-, path, hpath, -, e, he, special⟩
      rw [(cleared.clear _ hmem path hpath e he).2] at special
      cases special
  | _ => cases asks

theorem exists_answer? (valid : x.Valid s) (asks : x.frame? = some f) :
    ∃ r, s.answer? x = some r := by
  cases x with
  | request g t => exact ⟨_, rfl⟩
  | requestAt i g t =>
      rw [answer?, List.getElem?_eq_getElem valid.1]
      exact ⟨_, rfl⟩
  | _ => cases asks

-- ================================================================ whole runs

theorem run_append (s : Scope) (xs ys : List Action) : s.run (xs ++ ys) = (s.run xs).run ys :=
  List.foldl_append

theorem Sound.settles_run (sound : s.Sound) (valid : Along Action.Valid s actions) :
    Settles s.activations (s.run actions).activations := by
  induction actions generalizing s with
  | nil => exact .refl _
  | cons x actions ih =>
      have hacts := sound.acts anySlot valid.1 fun _ _ _ => trivial
      exact (sound.settles valid.1).trans (ih (sound.of_acts hacts) valid.2)

/-- A run that keeps layouts apart keeps clear what sites remember. -/
theorem Cleared.run (cleared : s.Cleared) (valid : Along Action.Valid s actions)
    (apart : (s.run actions).activations.Apart) : (s.run actions).Cleared := by
  induction actions generalizing s with
  | nil => exact cleared
  | cons x actions ih =>
      have hacts := cleared.toSound.acts anySlot valid.1 fun _ _ _ => trivial
      have hsettles := (cleared.toSound.of_acts hacts).settles_run valid.2
      exact ih (cleared.act valid.1 (hsettles.apart apart)) valid.2 apart

-- ============================================================ moments of a run

/-- A run at a moment, after so many actions. -/
def moment (actions : List Action) (i : Nat) : Scope := empty.run (actions.take i)

/-- The action at a moment of a run asks for the record of a frame, and finds
this one. -/
def Finds (actions : List Action) (i : Nat) (f : FrameId) (r : RecordId) : Prop :=
  ∃ x ∈ actions[i]?, x.frame? = some f ∧ (moment actions i).answer? x = some r

section moment

variable (valid : Along Action.Valid .empty actions)

include valid

theorem sound_moment (i : Nat) : (moment actions i).Sound := by
  rw [← List.take_append_drop i actions] at valid
  exact sound_run (Along.append_iff.mp valid).1

theorem settles_moment (le : i ≤ k) :
    Settles (moment actions i).activations (moment actions k).activations := by
  obtain ⟨n, rfl⟩ := Nat.exists_eq_add_of_le le
  have hsound := sound_moment valid i
  rw [← List.take_append_drop (i + n) actions, List.take_add] at valid
  obtain ⟨hpart, -⟩ := Along.append_iff.mp valid
  have hsettles := hsound.settles_run (Along.append_iff.mp hpart).2
  unfold moment at hsettles ⊢
  rw [List.take_add, run_append]
  exact hsettles

theorem cleared_moment (apart : (empty.run actions).activations.Apart) (i : Nat) :
    (moment actions i).activations.Apart ∧ (moment actions i).Cleared := by
  have hsound := sound_moment valid i
  have hrun : (empty.run actions) = (moment actions i).run (actions.drop i) := by
    unfold moment
    rw [← run_append, List.take_append_drop]
  rw [hrun] at apart
  rw [← List.take_append_drop i actions] at valid
  obtain ⟨hbefore, hrest⟩ := Along.append_iff.mp valid
  have hapart := (hsound.settles_run hrest).apart apart
  have hempty : empty.Cleared :=
    ⟨⟨sound_empty, fun _ mem => by cases mem⟩, fun _ mem => by cases mem⟩
  exact ⟨hapart, hempty.run hbefore hapart⟩

omit valid in
theorem moment_succ {x : Action} (h : actions[i]? = some x) :
    moment actions (i + 1) = (moment actions i).act x := by
  unfold moment
  rw [List.take_add_one, h, run_append]
  rfl

theorem valid_moment {x : Action} (h : actions[i]? = some x) : x.Valid (moment actions i) := by
  obtain ⟨hlt, rfl⟩ := List.getElem?_eq_some_iff.mp h
  rw [← List.take_append_drop i actions, List.drop_eq_getElem_cons hlt] at valid
  exact (Along.append_iff.mp valid).2.1

/-- From the request on, the record is stored at the end of the walk, and the
walk goes on to end there. -/
theorem Finds.stored (apart : (empty.run actions).activations.Apart)
    (finds : Finds actions i f r) (lt : i < k) :
    let a := (moment actions k).activations
    a.ownerOf f = (moment actions i).activations.ownerOf f ∧ a.Within f (a.ownerOf f)
      ∧ (a.frame (a.ownerOf f)).storage = some r := by
  intro a
  obtain ⟨x, hx, asks, hanswer⟩ := finds
  have hsound := (sound_moment valid i).activations
  obtain ⟨has, t, hstorage⟩ :=
    (cleared_moment valid apart i).2.storageOf_eq (valid_moment valid hx) asks hanswer
  obtain ⟨owner, path, a', hwalks⟩ := exists_walks hsound f
  rw [storageOf_eq hsound has hwalks, ← moment_succ hx] at hstorage
  -- the record is there after the request, and is there still at the moment `k`
  have hstored : ((moment actions (i + 1)).activations.frame owner).storage = some r := by
    have howner := (hwalks.evolves anySlot hsound has).2
    have hstored := storage_materialize howner t
    rw [hstorage] at hstored
    exact hstored
  have hlater := settles_moment valid (Nat.le_of_lt lt)
  have hafter := settles_moment valid (Nat.succ_le_of_lt lt)
  obtain ⟨path', b, hwalks'⟩ :=
    hwalks.of_settles hsound has hlater (cleared_moment valid apart k).1
  have hnow : a.ownerOf f = owner :=
    ownerOf_eq (sound_moment valid k).activations (hlater.hasFrame has) hwalks'
  rw [hnow, ownerOf_eq hsound has hwalks]
  exact ⟨rfl, hwalks'.within, hafter.stored hstored⟩

end moment

/-- Records are neither moved nor duplicated in a run. -/
structure RecordsStay (actions : List Action) : Prop where
  /-- Every request finds a record. -/
  answered : ∀ {i : Nat} {x : Action} {f : FrameId}, actions[i]? = some x →
    x.frame? = some f → ∃ r, Finds actions i f r
  /-- Requests for one frame find one record, whenever they are made. -/
  found_again : ∀ {i j : Nat} {f : FrameId} {r r' : RecordId}, Finds actions i f r →
    Finds actions j f r' → r = r'
  /-- The record is that of one frame from then on, the frame itself or one
  around it. -/
  placed : ∀ {i k : Nat} {f : FrameId} {r : RecordId}, Finds actions i f r → i < k →
    ∃ owner, (moment actions k).activations.Within f owner
      ∧ ∀ g, ((moment actions k).activations.frame g).storage = some r ↔ g = owner
  /-- Two frames have one record if their walks end at one frame. -/
  shared_iff : ∀ {i j : Nat} {f g : FrameId} {r r' : RecordId}, Finds actions i f r →
    Finds actions j g r' → (r = r' ↔ (moment actions i).activations.ownerOf f
      = (moment actions j).activations.ownerOf g)

/-- In every run that keeps layouts apart, records are neither moved nor
duplicated. -/
theorem recordsStay_of_run (valid : Along Action.Valid .empty actions)
    (apart : (empty.run actions).activations.Apart) : RecordsStay actions where
  answered hx asks := by
    obtain ⟨r, hr⟩ := exists_answer? (valid_moment valid hx) asks
    exact ⟨r, _, hx, asks, hr⟩
  found_again {i j f r r'} hi hj := by
    have hlt : i < max i j + 1 ∧ j < max i j + 1 := by omega
    obtain ⟨-, -, hr⟩ := hi.stored valid apart hlt.1
    obtain ⟨-, -, hr'⟩ := hj.stored valid apart hlt.2
    exact Option.some.inj (hr.symm.trans hr')
  placed {i k f r} h lt := by
    obtain ⟨-, hwithin, hr⟩ := h.stored valid apart lt
    refine ⟨_, hwithin, fun g => ⟨fun hg => ?_, fun heq => by rw [heq]; exact hr⟩⟩
    exact (sound_moment valid k).activations.apart hg hr
  shared_iff {i j f g r r'} hi hj := by
    have hlt : i < max i j + 1 ∧ j < max i j + 1 := by omega
    obtain ⟨howner, -, hr⟩ := hi.stored valid apart hlt.1
    obtain ⟨howner', -, hr'⟩ := hj.stored valid apart hlt.2
    rw [← howner, ← howner']
    constructor
    · rintro rfl
      exact (sound_moment valid _).activations.apart hr hr'
    · intro heq
      rw [heq] at hr
      exact Option.some.inj (hr.symm.trans hr')

/-- Two methods with blocks in them, and slots of the special slot's name in
both layouts: the slot of a method is adopted, that of a block is not. One site
serves all frames. -/
def blocksOfMethods : List Action :=
  [.addLayout "method" false, .addLayout "block" false, .addSlot ⟨0⟩ specialSlotName,
    .addSlot ⟨1⟩ specialSlotName, .addFrame ⟨0⟩ none, .addFrame ⟨1⟩ (some ⟨0⟩),
    .addFrame ⟨1⟩ (some ⟨1⟩), .addFrame ⟨0⟩ none, .addFrame ⟨1⟩ (some ⟨3⟩),
    .openSite .standard, .requestAt 0 ⟨2⟩ ⟨0⟩, .requestAt 0 ⟨4⟩ ⟨0⟩, .addSlot ⟨1⟩ "x",
    .request ⟨2⟩ ⟨1⟩, .requestAt 0 ⟨1⟩ ⟨0⟩]

/-- The blocks of a method find its record before and after the slots change,
the block of the other method finds another one. -/
theorem recordsStay_of_adopted_slot :
    Along Action.Valid .empty blocksOfMethods
      ∧ (empty.run blocksOfMethods).activations.Apart
      ∧ Finds blocksOfMethods 10 ⟨2⟩ ⟨0⟩ ∧ Finds blocksOfMethods 11 ⟨4⟩ ⟨1⟩
      ∧ Finds blocksOfMethods 14 ⟨1⟩ ⟨0⟩ ∧ RecordsStay blocksOfMethods := by
  have valid : Along Action.Valid .empty blocksOfMethods := by decide
  have apart : (empty.run blocksOfMethods).activations.Apart := by decide
  refine ⟨valid, apart, ?_, ?_, ?_, recordsStay_of_run valid apart⟩
  · exact ⟨_, rfl, rfl, rfl⟩
  · exact ⟨_, rfl, rfl, rfl⟩
  · exact ⟨_, rfl, rfl, rfl⟩

end Scope

end ObjectModel
