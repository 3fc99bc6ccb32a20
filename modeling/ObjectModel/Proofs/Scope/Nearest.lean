/-
Where a record is found, and what the walk to it changes.

The frames from a frame outwards are a row that ends at an outermost frame
(`Outwards`). A walk stops at the first frame of the row whose layout has the
special slot, and at the last one if there is none (`Walks.stops`). Then only
the layout of the last frame changes: it gets the slot, a new one at the end or
the one of that name that it has, and all its slots stay where they are
(`FrameLayout.Gains`). The record is made at the frame where the walk stopped if
that frame has none, and nothing else changes (`Fetched`).

Layouts may be shared, by frames of one row as well: what counts is which
layouts have the slot when the walk starts.
-/
import ObjectModel.Proofs.Scope.Ownership

namespace ObjectModel

-- =============================================================== one layout

namespace FrameLayout

variable {l : FrameLayout}

/-- One layout is another with the special slot, which it had under its name or
gained at the end. -/
structure Gains (l l' : FrameLayout) : Prop where
  name : l'.name = l.name
  slots : l'.slots = if specialSlotName ∈ l.slots then l.slots else l.slots ++ [specialSlotName]
  places : ∀ name i, l.findSlot? name = some i → l'.findSlot? name = some i
  special : ∃ i, l'.special = some i ∧ l'.findSlot? specialSlotName = some i

/-- A slot stays where it is if another is added behind it. -/
theorem findSlot?_append {name added : String} {i : Nat} (h : l.findSlot? name = some i) :
    (l.slots ++ [added]).findIdx? (· == name) = some i := by
  unfold findSlot? at h
  rw [List.findIdx?_append, h]
  rfl

theorem findSlot?_eq_none_iff {name : String} : l.findSlot? name = none ↔ name ∉ l.slots := by
  unfold findSlot?
  rw [List.findIdx?_eq_none_iff]
  constructor
  · intro h mem
    have hne := h name mem
    rw [beq_self_eq_true] at hne
    cases hne
  · intro h x mem
    rw [beq_eq_false_iff_ne]
    rintro rfl
    exact h mem

theorem gains_registerSpecial (plain : l.hasSpecial = false) : Gains l l.registerSpecial := by
  have hnone : l.special = none := Option.not_isSome_iff_eq_none.mp (Bool.eq_false_iff.mp plain)
  unfold registerSpecial
  rw [hnone]
  unfold addSlot
  cases hfind : l.findSlot? specialSlotName with
  | some i =>
      have hmem : specialSlotName ∈ l.slots := by
        refine Classical.byContradiction fun hout => ?_
        rw [findSlot?_eq_none_iff.mpr hout] at hfind
        cases hfind
      exact ⟨rfl, (if_pos hmem).symm, fun _ _ h => h, i, rfl, hfind⟩
  | none =>
      have hout : specialSlotName ∉ l.slots := findSlot?_eq_none_iff.mp hfind
      refine ⟨rfl, (if_neg hout).symm, fun _ _ h => findSlot?_append h, l.slots.length, rfl, ?_⟩
      show (l.slots ++ [specialSlotName]).findIdx? (· == specialSlotName) = some l.slots.length
      unfold findSlot? at hfind
      rw [List.findIdx?_append, hfind, Option.none_or, List.findIdx?_cons, beq_self_eq_true]
      exact congrArg some (Nat.zero_add _)

end FrameLayout

-- =============================================================== one walk

namespace Activations

variable {a a' : Activations} {f g owner : FrameId} {path : Path} {frames : List FrameId}

/-- The frames from a frame outwards, the outermost one last. -/
inductive Outwards (a : Activations) : FrameId → List FrameId → Prop
  | outermost {f : FrameId} (outer : (a.frame f).declaration = none) : Outwards a f [f]
  | inner {f g : FrameId} {frames : List FrameId} (inner : (a.frame f).declaration = some g)
      (rest : Outwards a g frames) : Outwards a f (f :: frames)

/-- A request for a record walked along the frames to the owner, and found the
record there or made it. -/
structure Fetched (a a' : Activations) (frames : List FrameId) (owner : FrameId) (s : RecordId)
    (t : ThreadId) : Prop where
  nearest : (frames.find? fun g => (a.frameLayout g).hasSpecial).or frames.getLast? = some owner
  stored : a'.frame owner = { a.frame owner with storage := some s }
  found : (a.frame owner).storage.isSome = true → (a.frame owner).storage = some s
    ∧ a'.frames = a.frames ∧ a'.records = a.records
  made : (a.frame owner).storage = none → s = ⟨a.records.length⟩
    ∧ a'.frames.length = a.frames.length ∧ a'.records = a.records ++ [.fresh t]
  others : ∀ g, g ≠ owner → a'.frame g = a.frame g
  layouts_kept : (∃ g ∈ frames, (a.frameLayout g).hasSpecial = true) → a'.layouts = a.layouts
  registered : (∀ g ∈ frames, (a.frameLayout g).hasSpecial = false) →
    frames.getLast? = some owner
      ∧ FrameLayout.Gains (a.frameLayout owner) (a'.layout (a.frame owner).layout)
      ∧ ∀ l, l ≠ (a.frame owner).layout → a'.layout l = a.layout l

/-- Every frame has a row of frames around it. -/
theorem exists_outwards (sound : a.Sound) (f : FrameId) : ∃ frames, Outwards a f frames := by
  obtain ⟨i⟩ := f
  induction i using Nat.strongRecOn with
  | ind i ih =>
      cases hdecl : (a.frame ⟨i⟩).declaration with
      | none => exact ⟨_, .outermost hdecl⟩
      | some g =>
          obtain ⟨frames, hrest⟩ := ih g.index (sound.declared hdecl)
          exact ⟨_, .inner hdecl hrest⟩

/-- Where a walk stops: with the layouts as they were, at the first frame with
the special slot, or at the last frame, whose layout gets the slot. -/
inductive Stops (a : Activations) (frames : List FrameId) (owner : FrameId) : Activations → Prop
  | found (first : frames.find? (fun g => (a.frameLayout g).hasSpecial) = some owner) :
      Stops a frames owner a
  | registered (plain : ∀ g ∈ frames, (a.frameLayout g).hasSpecial = false)
      (last : frames.getLast? = some owner) :
      Stops a frames owner (a.modifyLayout (a.frame owner).layout .registerSpecial)

theorem Outwards.ne_nil (outwards : Outwards a f frames) : frames ≠ [] := by
  cases outwards with
  | outermost => exact List.cons_ne_nil _ _
  | inner => exact List.cons_ne_nil _ _

/-- A walk follows the row of frames. -/
theorem Walks.stops (walks : Walks a f owner path a') (outwards : Outwards a f frames) :
    Stops a frames owner a' := by
  induction walks generalizing frames with
  | @found f special =>
      refine .found ?_
      cases outwards with
      | outermost => exact List.find?_cons_of_pos special
      | inner => exact List.find?_cons_of_pos special
  | @outermost f plain outer =>
      cases outwards with
      | outermost =>
          refine .registered (fun g mem => ?_) rfl
          rw [List.mem_singleton.mp mem]
          exact plain
      | inner inner _ =>
          rw [outer] at inner
          cases inner
  | @outwards f g owner path a' plain inner rest ih =>
      cases outwards with
      | outermost outer =>
          rw [outer] at inner
          cases inner
      | @inner f g' frames inner' outwards =>
          rw [inner] at inner'
          cases inner'
          cases ih outwards with
          | found first =>
              refine .found ?_
              rw [List.find?_cons_of_neg (by rw [plain]; exact Bool.false_ne_true)]
              exact first
          | registered none_special last =>
              refine .registered (fun x mem => ?_) ?_
              · rcases List.mem_cons.mp mem with rfl | mem
                · exact plain
                · exact none_special x mem
              · rw [List.getLast?_cons_of_ne_nil outwards.ne_nil]
                exact last

/-- The owner that a walk stopped at is the nearest frame with the slot, or the
last one. -/
theorem Stops.nearest (stops : Stops a frames owner a') :
    (frames.find? fun g => (a.frameLayout g).hasSpecial).or frames.getLast? = some owner := by
  cases stops with
  | found first => rw [first, Option.some_or]
  | registered plain last =>
      have hnone : frames.find? (fun g => (a.frameLayout g).hasSpecial) = none := by
        rw [List.find?_eq_none]
        intro g mem special
        rw [plain g mem] at special
        cases special
      rw [hnone, Option.none_or, last]

theorem Stops.frames_eq (stops : Stops a frames owner a') :
    a'.frames = a.frames ∧ a'.records = a.records := by
  cases stops with
  | found => exact ⟨rfl, rfl⟩
  | registered => exact ⟨rfl, rfl⟩

/-- No layout changes if one of them has the slot. -/
theorem Stops.layouts_kept (stops : Stops a frames owner a')
    (special : ∃ g ∈ frames, (a.frameLayout g).hasSpecial = true) : a'.layouts = a.layouts := by
  cases stops with
  | found => rfl
  | registered plain =>
      obtain ⟨g, mem, special⟩ := special
      rw [plain g mem] at special
      cases special

/-- If none has it, the last frame is the owner, and its layout gains the slot. -/
theorem Stops.registers (sound : a.Sound) (has : a.HasFrame owner)
    (stops : Stops a frames owner a') (plain : ∀ g ∈ frames, (a.frameLayout g).hasSpecial = false) :
    frames.getLast? = some owner
      ∧ FrameLayout.Gains (a.frameLayout owner) (a'.layout (a.frame owner).layout)
      ∧ ∀ l, l ≠ (a.frame owner).layout → a'.layout l = a.layout l := by
  cases stops with
  | found first =>
      have hspecial : (a.frameLayout owner).hasSpecial = true :=
        List.find?_some (p := fun g => (a.frameLayout g).hasSpecial) first
      rw [plain owner (List.mem_of_find?_eq_some first)] at hspecial
      cases hspecial
  | registered _ last =>
      have hmem : owner ∈ frames := List.mem_of_getLast? last
      refine ⟨last, ?_, fun l ne => ?_⟩
      · rw [layout_modifyLayout, if_pos ⟨rfl, sound.laidOut has⟩]
        exact FrameLayout.gains_registerSpecial (plain owner hmem)
      · rw [layout_modifyLayout, if_neg fun h => ne h.1]

/-- A record that is there is found, and nothing changes but what the walk
changed. A new record is made at the owner. -/
theorem Stops.fetched (sound : a.Sound) (has : a.HasFrame owner) (stops : Stops a frames owner a')
    (t : ThreadId) :
    Fetched a (a'.materialize owner t).2 frames owner (a'.materialize owner t).1 t := by
  obtain ⟨hframes, hrecords⟩ := stops.frames_eq
  have hframe : ∀ g, a'.frame g = a.frame g := fun g => by
    unfold frame
    rw [hframes]
  have hlayouts := layouts_materialize a' owner t
  have hlayout : ∀ l, (a'.materialize owner t).2.layout l = a'.layout l := fun l => by
    unfold layout
    rw [hlayouts]
  have hkept := fun special => hlayouts.trans (stops.layouts_kept special)
  have hregistered := stops.registers sound has
  simp only [← hlayout] at hregistered
  cases hstorage : (a.frame owner).storage with
  | some s =>
      have hmade := materialize_of_some a' t ((congrArg Frame.storage (hframe owner)).trans hstorage)
      rw [hmade] at hkept hregistered ⊢
      refine ⟨stops.nearest, ?_, fun _ => ⟨hstorage, hframes, hrecords⟩, fun hnone => ?_,
        fun g _ => hframe g, hkept, hregistered⟩
      · rw [hframe, ← hstorage]
      · rw [hstorage] at hnone
        cases hnone
  | none =>
      have hfree : (a'.frame owner).storage = none :=
        (congrArg Frame.storage (hframe owner)).trans hstorage
      have hmade := frame_materialize a' t hfree
      have hhas : a'.HasFrame owner := by
        unfold HasFrame
        rw [hframes]
        exact has
      refine ⟨stops.nearest, ?_, fun hsome => ?_, fun _ => ?_, fun g ne => ?_, hkept, hregistered⟩
      · rw [hmade, if_pos ⟨rfl, hhas⟩, hframe]
        unfold materialize
        rw [hfree]
      · rw [hstorage] at hsome
        cases hsome
      · unfold materialize
        rw [hfree]
        refine ⟨by rw [hrecords], ?_, by rw [hrecords]⟩
        rw [List.length_modify, hframes]
      · rw [hmade, if_neg fun h => ne h.1, hframe]

/-- A request for a record finds it at the nearest frame with the special slot,
or at the outermost frame. -/
theorem Sound.exists_fetched (sound : a.Sound) (has : a.HasFrame f) (t : ThreadId) :
    ∃ frames owner, Outwards a f frames
      ∧ Fetched a (a.storageOf f t).2 frames owner (a.storageOf f t).1 t := by
  obtain ⟨frames, houtwards⟩ := exists_outwards sound f
  obtain ⟨owner, path, a', hwalks⟩ := exists_walks sound f
  have howner : a.HasFrame owner := Nat.lt_of_le_of_lt (hwalks.index_le sound) has
  rw [storageOf_eq sound has hwalks]
  exact ⟨frames, owner, houtwards, (hwalks.stops houtwards).fetched sound howner t⟩

end Activations

namespace Scope

variable {actions : List Action}

/-- After any run, a request for the record of any frame finds it at the nearest
frame outwards whose layout has the special slot, or else at the outermost frame.
The record is made if there is none; no other frame changes, and no layout but
that of the outermost frame, which gains at most the special slot. -/
theorem fetched_of_run (valid : Along Action.Valid .empty actions) (f : FrameId)
    (has : (empty.run actions).activations.HasFrame f) (t : ThreadId) :
    let a := (empty.run actions).activations
    ∃ frames owner, a.Outwards f frames
      ∧ a.Fetched (a.storageOf f t).2 frames owner (a.storageOf f t).1 t :=
  (sound_run valid).activations.exists_fetched has t

/-- A method calls itself from a block in it: the frame inside the block has the
layout of the outermost one, which has a slot of the special slot's name. -/
def recursionInBlock : List Action :=
  [.addLayout "method" false, .addLayout "block" false, .addSlot ⟨0⟩ "x",
    .addSlot ⟨0⟩ specialSlotName, .addFrame ⟨0⟩ none, .addFrame ⟨1⟩ (some ⟨0⟩),
    .addFrame ⟨0⟩ (some ⟨1⟩)]

/-- The record is the outermost frame's, and the slot is adopted. -/
theorem fetched_of_recursionInBlock :
    let a := (empty.run recursionInBlock).activations
    Along Action.Valid .empty recursionInBlock ∧ a.HasFrame ⟨2⟩
      ∧ ((a.storageOf ⟨2⟩ ⟨0⟩).2.frame ⟨0⟩).storage = some (a.storageOf ⟨2⟩ ⟨0⟩).1
      ∧ ((a.storageOf ⟨2⟩ ⟨0⟩).2.layout ⟨0⟩).slots = ["x", specialSlotName]
      ∧ ∃ frames owner, a.Outwards ⟨2⟩ frames
        ∧ a.Fetched (a.storageOf ⟨2⟩ ⟨0⟩).2 frames owner (a.storageOf ⟨2⟩ ⟨0⟩).1 ⟨0⟩ := by
  intro a
  have valid : Along Action.Valid .empty recursionInBlock := by decide
  have has : a.HasFrame ⟨2⟩ := by decide
  exact ⟨valid, has, by decide, by decide, fetched_of_run valid ⟨2⟩ has ⟨0⟩⟩

end Scope

end ObjectModel
