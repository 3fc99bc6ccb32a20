/-
Walks to a record, and walks that are gone again.

`Walks` says by which frames a walk comes to the owner of a record, without the
fuel that the walk counts down; a frame is declared inside an older one, so the
fuel is never used up (`walk_eq`, `exists_walks`). `Replays` says the same of a
remembered way.

A way that can be gone again leads where the walk leads exactly if no layout
has the special slot before its end: if one has, the walk stops there already,
at another frame (`Replays.walks`, `Replays.ne_of_special`).
-/
import ObjectModel.Proofs.Scope.Change

namespace ObjectModel

namespace Activations

variable {a a' a'' : Activations} {f g owner owner' : FrameId} {path path' : Path}

/-- A layout and its version, as a path has them. -/
def entry (a : Activations) (l : LayoutId) : LayoutId × Nat := (l, (a.layout l).version)

/-- A walk from one frame leads to the owner by a path, and leaves these
activations. -/
inductive Walks (a : Activations) : FrameId → FrameId → Path → Activations → Prop
  | found {f : FrameId} (special : (a.frameLayout f).hasSpecial = true) :
      Walks a f f [a.entry (a.frame f).layout] a
  | outermost {f : FrameId} (plain : (a.frameLayout f).hasSpecial = false)
      (outer : (a.frame f).declaration = none) :
      Walks a f f
        [(a.modifyLayout (a.frame f).layout .registerSpecial).entry (a.frame f).layout]
        (a.modifyLayout (a.frame f).layout .registerSpecial)
  | outwards {f g owner : FrameId} {path : Path} {a' : Activations}
      (plain : (a.frameLayout f).hasSpecial = false)
      (inner : (a.frame f).declaration = some g) (rest : Walks a g owner path a') :
      Walks a f owner (a.entry (a.frame f).layout :: path) a'

-- ================================================== the walk and its fuel

/-- With more fuel than there are older frames, the walk goes where it leads. -/
theorem walk_eq (sound : a.Sound) (walks : Walks a f owner path a') {fuel : Nat}
    (enough : f.index ≤ fuel) : walk (fuel + 1) a f = (owner, path, a') := by
  unfold walk
  dsimp only
  induction walks generalizing fuel with
  | found special =>
      unfold frameLayout at special
      rw [special]
      rfl
  | outermost plain outer =>
      unfold frameLayout at plain
      rw [plain, outer]
      rfl
  | @outwards f g owner path a' plain inner _ ih =>
      have hlt := sound.declared inner
      obtain ⟨fuel, rfl⟩ : ∃ rest, fuel = rest + 1 := ⟨fuel - 1, by omega⟩
      have hrest : walk (fuel + 1) a g = (owner, path, a') := ih (by omega)
      unfold frameLayout at plain
      rw [plain, inner]
      dsimp only
      rw [hrest]
      rfl

/-- Every walk leads somewhere. -/
theorem exists_walks (sound : a.Sound) (f : FrameId) :
    ∃ owner path a', Walks a f owner path a' := by
  obtain ⟨i⟩ := f
  induction i using Nat.strongRecOn with
  | ind i ih =>
      cases hspecial : (a.frameLayout ⟨i⟩).hasSpecial with
      | true => exact ⟨_, _, _, .found hspecial⟩
      | false =>
          cases hdecl : (a.frame ⟨i⟩).declaration with
          | none => exact ⟨_, _, _, .outermost hspecial hdecl⟩
          | some g =>
              obtain ⟨owner, path, a', hrest⟩ := ih g.index (sound.declared hdecl)
              exact ⟨_, _, _, .outwards hspecial hdecl hrest⟩

theorem locate_eq (sound : a.Sound) (has : a.HasFrame f) (walks : Walks a f owner path a')
    (t : ThreadId) :
    a.locate f t = ((a'.materialize owner t).1, path, (a'.materialize owner t).2) := by
  unfold locate
  rw [walk_eq sound walks (Nat.le_of_lt has)]

theorem storageOf_eq (sound : a.Sound) (has : a.HasFrame f) (walks : Walks a f owner path a')
    (t : ThreadId) : a.storageOf f t = a'.materialize owner t := by
  unfold storageOf
  rw [locate_eq sound has walks]

-- ======================================================= what a walk leaves

namespace Walks

theorem index_le (sound : a.Sound) (walks : Walks a f owner path a') :
    owner.index ≤ f.index := by
  induction walks with
  | found => exact Nat.le_refl _
  | outermost => exact Nat.le_refl _
  | outwards _ inner _ ih => exact Nat.le_trans ih (Nat.le_of_lt (sound.declared inner))

/-- A walk changes nothing, or registers the special slot of one layout. -/
theorem evolves (slot : FrameLayout → String → Prop) (sound : a.Sound) (has : a.HasFrame f)
    (walks : Walks a f owner path a') : Evolves slot a a' ∧ a'.HasFrame owner := by
  induction walks with
  | found => exact ⟨.refl _, has⟩
  | outermost => exact ⟨.step (.refl _) (.register (sound.laidOut has)), has⟩
  | outwards _ inner _ ih => exact ih (sound.hasFrame_declaration inner)

end Walks

/-- A walk and the record at its end are changes. -/
theorem evolves_storageOf (slot : FrameLayout → String → Prop) (sound : a.Sound)
    (has : a.HasFrame f) (t : ThreadId) : Evolves slot a (a.storageOf f t).2 := by
  obtain ⟨owner, path, a', hwalks⟩ := exists_walks sound f
  obtain ⟨hevolves, howner⟩ := hwalks.evolves slot sound has
  rw [storageOf_eq sound has hwalks]
  exact .step hevolves (.materialize t howner)

-- ==================================================== remembered ways

/-- A path as walks leave it, at any later time: the special slot is at its
end. -/
structure Trail (a : Activations) (path : Path) : Prop where
  has : ∀ e ∈ path, a.HasLayout e.1
  ends : ∃ e ∈ path.getLast?, (a.layout e.1).hasSpecial = true

/-- A path whose versions are to be trusted: in the version that it has for
them, the layouts before its end have no special slot. -/
structure Trusty (a : Activations) (path : Path) : Prop extends Trail a path where
  version_le : ∀ e ∈ path, e.2 ≤ (a.layout e.1).version
  plain : ∀ e ∈ path.dropLast, (a.layout e.1).version = e.2 →
    (a.layout e.1).hasSpecial = false

theorem Trail.ne_nil (trail : Trail a path) : path ≠ [] := by
  intro heq
  subst heq
  obtain ⟨e, mem, -⟩ := trail.ends
  cases mem

theorem Trail.of_follows (trail : Trail a path) (later : Follows FrameLayout.Later a a') :
    Trail a' path where
  has e mem := later.has (trail.has e mem)
  ends := by
    obtain ⟨e, mem, special⟩ := trail.ends
    exact ⟨e, mem, (later.layout (trail.has e (List.mem_of_getLast? mem))).special special⟩

theorem Trusty.of_follows (trusty : Trusty a path) (marked : Follows FrameLayout.Marked a a') :
    Trusty a' path where
  toTrail := trusty.toTrail.of_follows ⟨marked.length_le, fun has => (marked.layout has).toLater⟩
  version_le e mem :=
    Nat.le_trans (trusty.version_le e mem) (marked.layout (trusty.has e mem)).version
  plain e mem same := by
    have hmem := List.dropLast_subset path mem
    have hmarked := marked.layout (trusty.has e hmem)
    -- the version in the path is neither newer than it was nor older than it is
    have hle := trusty.version_le e hmem
    have hle' := hmarked.version
    have hold : (a.layout e.1).version = e.2 := by omega
    rw [hmarked.marks (same.trans hold.symm)]
    exact trusty.plain e mem hold

/-- A walk leaves a path that ends at the special slot. -/
theorem Walks.trail (sound : a.Sound) (has : a.HasFrame f) (walks : Walks a f owner path a') :
    Trail a' path := by
  induction walks with
  | @found f special =>
      refine ⟨fun e mem => ?_, _, rfl, special⟩
      rw [List.mem_singleton.mp mem]
      exact sound.laidOut has
  | @outermost f plain outer =>
      refine ⟨fun e mem => ?_, _, rfl, ?_⟩
      · rw [List.mem_singleton.mp mem]
        exact (hasLayout_modifyLayout a _ _).mpr (sound.laidOut has)
      · unfold entry
        rw [layout_modifyLayout, if_pos ⟨rfl, sound.laidOut has⟩]
        exact FrameLayout.hasSpecial_registerSpecial _
  | @outwards f g owner path a' plain inner rest ih =>
      have hasg := sound.hasFrame_declaration inner
      have hlater := (rest.evolves anySlot sound hasg).1.later
      obtain ⟨e, mem, special⟩ := (ih hasg).ends
      refine ⟨fun x hx => ?_, e, ?_, special⟩
      · rcases List.mem_cons.mp hx with rfl | hx
        · exact hlater.has (sound.laidOut has)
        · exact (ih hasg).has x hx
      · rw [List.getLast?_cons_of_ne_nil (ih hasg).ne_nil]
        exact mem

/-- If all layouts are orderly, the path can be trusted. -/
theorem Walks.trusty (sound : a.Sound) (orderly : a.Orderly) (has : a.HasFrame f)
    (walks : Walks a f owner path a') : Trusty a' path := by
  have htrail := walks.trail sound has
  induction walks with
  | found =>
      refine ⟨htrail, fun e mem => ?_, fun e mem => ?_⟩
      · rw [List.mem_singleton.mp mem]
        exact Nat.le_refl _
      · cases mem
  | outermost =>
      refine ⟨htrail, fun e mem => ?_, fun e mem => ?_⟩
      · rw [List.mem_singleton.mp mem]
        exact Nat.le_refl _
      · cases mem
  | @outwards f g owner path a' plain inner rest ih =>
      have hasg := sound.hasFrame_declaration inner
      have hrest := ih hasg (rest.trail sound hasg)
      have hmarked := ((rest.evolves orderlySlot sound hasg).1.marked orderly).1.layout
        (sound.laidOut has)
      refine ⟨htrail, fun e mem => ?_, fun e mem => ?_⟩
      · rcases List.mem_cons.mp mem with rfl | mem
        · exact hmarked.version
        · exact hrest.version_le e mem
      · rw [List.dropLast_cons_of_ne_nil hrest.ne_nil] at mem
        rcases List.mem_cons.mp mem with rfl | mem
        · intro same
          exact (hmarked.marks same).trans plain
        · exact hrest.plain e mem

-- ==================================================== ways gone again

/-- A remembered way leads from one frame to the owner. -/
inductive Replays (a : Activations) : FrameId → FrameId → Path → Prop
  | arrived (f : FrameId) : Replays a f f [a.entry (a.frame f).layout]
  | outwards {f g owner : FrameId} {path : Path} (inner : (a.frame f).declaration = some g)
      (rest : Replays a g owner path) :
      Replays a f owner (a.entry (a.frame f).layout :: path)

theorem replays_of_replay (nonempty : path ≠ [])
    (h : StorageSite.replay a f path = some owner) : Replays a f owner path := by
  induction path generalizing f with
  | nil => exact absurd rfl nonempty
  | cons e rest ih =>
      obtain ⟨layout, version⟩ := e
      unfold StorageSite.replay at h
      split at h
      · next hmatch =>
          obtain ⟨rfl, rfl⟩ := hmatch
          cases rest with
          | nil =>
              obtain rfl := Option.some.inj h
              exact .arrived f
          | cons e' rest =>
              obtain ⟨g, inner, hrest⟩ := Option.bind_eq_some_iff.mp h
              exact .outwards inner (ih (List.cons_ne_nil _ _) hrest)
      · cases h

namespace Replays

theorem ne_nil (replays : Replays a f owner path) : path ≠ [] := by
  cases replays with
  | arrived => exact List.cons_ne_nil _ _
  | outwards => exact List.cons_ne_nil _ _

theorem index_le (sound : a.Sound) (replays : Replays a f owner path) :
    owner.index ≤ f.index := by
  induction replays with
  | arrived => exact Nat.le_refl _
  | outwards inner _ ih => exact Nat.le_trans ih (Nat.le_of_lt (sound.declared inner))

theorem hasFrame (sound : a.Sound) (has : a.HasFrame f) (replays : Replays a f owner path) :
    a.HasFrame owner :=
  Nat.lt_of_le_of_lt (replays.index_le sound) has

/-- The versions of a way that can be gone again are the present ones. -/
theorem version_eq (replays : Replays a f owner path) :
    ∀ e ∈ path, (a.layout e.1).version = e.2 := by
  induction replays with
  | arrived f =>
      intro e mem
      rw [List.mem_singleton.mp mem]
      rfl
  | outwards inner _ ih =>
      intro e mem
      rcases List.mem_cons.mp mem with rfl | mem
      · rfl
      · exact ih e mem

/-- With the special slot at its end and nowhere before, the way is the walk. -/
theorem walks (replays : Replays a f owner path)
    (plain : ∀ e ∈ path.dropLast, (a.layout e.1).hasSpecial = false)
    (ends : ∃ e ∈ path.getLast?, (a.layout e.1).hasSpecial = true) :
    Walks a f owner path a := by
  induction replays with
  | arrived f =>
      obtain ⟨e, ⟨⟩, special⟩ := ends
      exact .found special
  | @outwards f g owner path inner rest ih =>
      rw [List.dropLast_cons_of_ne_nil rest.ne_nil] at plain
      rw [List.getLast?_cons_of_ne_nil rest.ne_nil] at ends
      exact .outwards (plain _ List.mem_cons_self) inner
        (ih (fun x hx => plain x (List.mem_cons_of_mem _ hx)) ends)

/-- With the special slot before its end, the walk stops at another frame. -/
theorem ne_of_special (sound : a.Sound) (replays : Replays a f owner path)
    (overtaken : ∃ e ∈ path.dropLast, (a.layout e.1).hasSpecial = true)
    (walks : Walks a f owner' path' a') : a' = a ∧ owner'.index ≠ owner.index := by
  induction replays generalizing path' with
  | arrived f =>
      obtain ⟨e, mem, -⟩ := overtaken
      cases mem
  | @outwards f g owner path inner rest ih =>
      rw [List.dropLast_cons_of_ne_nil rest.ne_nil] at overtaken
      cases walks with
      | found special =>
          have hle := rest.index_le sound
          have hlt := sound.declared inner
          exact ⟨rfl, by omega⟩
      | outermost plain outer =>
          rw [outer] at inner
          cases inner
      | outwards plain inner' rest' =>
          rw [inner] at inner'
          obtain rfl := Option.some.inj inner'
          obtain ⟨e, mem, special⟩ := overtaken
          rcases List.mem_cons.mp mem with rfl | mem
          · have hspecial : (a.frameLayout f).hasSpecial = true := special
            rw [hspecial] at plain
            cases plain
          · exact ih ⟨e, mem, special⟩ rest'

end Replays

/-- Records of different frames are different, now or when they are made. -/
theorem materialize_inj (sound : a.Sound) (has : a.HasFrame f) (has' : a.HasFrame g)
    {t : ThreadId} (h : a.materialize f t = a.materialize g t) : f = g := by
  cases hf : (a.frame f).storage with
  | some s =>
      rw [materialize_of_some a t hf] at h
      cases hg : (a.frame g).storage with
      | some s' =>
          rw [materialize_of_some a t hg] at h
          obtain ⟨rfl, -⟩ := Prod.mk.inj h
          exact sound.apart hf hg
      | none =>
          have hframe := congrArg (fun x => (x.2.frame g).storage) h
          rw [frame_materialize a t hg, if_pos ⟨rfl, has'⟩, hg] at hframe
          cases hframe
  | none =>
      have hframe := congrArg (fun x => (x.2.frame f).storage) h
      rw [frame_materialize a t hf, if_pos ⟨rfl, has⟩] at hframe
      cases hg : (a.frame g).storage with
      | some s' =>
          rw [materialize_of_some a t hg, hf] at hframe
          cases hframe
      | none =>
          rw [frame_materialize a t hg] at hframe
          split at hframe
          · next heq => exact heq.1
          · rw [hf] at hframe
            cases hframe

end Activations

end ObjectModel
