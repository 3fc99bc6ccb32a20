/-
When storage sites can be trusted.

A site goes the way that it remembers as long as the layouts on it are in the
versions that it remembers. That is right as long as none of them has got the
special slot meanwhile, except the last (`StorageSite.Overtaken`); then, and
only then, does the site find another record than a walk would
(`answer_eq_iff`).

A run of a scope may come to that, by a slot that has the special slot's name
before the special slot is registered: the slot is adopted later and the
version stays. An orderly run never does (`trusted_run`).
-/
import ObjectModel.Proofs.Scope.Walk

namespace ObjectModel

open Activations

-- =============================================================== one site

namespace StorageSite

variable {site : StorageSite} {a : Activations} {f owner : FrameId} {t : ThreadId}

/-- The record that a site finds, and the activations that it leaves. -/
def answer (site : StorageSite) (a : Activations) (f : FrameId) (t : ThreadId) :
    RecordId × Activations :=
  ((site.storageOf a f t).1, (site.storageOf a f t).2.2)

/-- Where the site goes by the way that it remembers, if it goes it. -/
def replayed? (site : StorageSite) (a : Activations) (f : FrameId) : Option FrameId :=
  if site.generic then none else site.path.bind (replay a f)

/-- The way that the site remembers seems to hold at a frame, though a walk
would not come to the end of it. -/
def Overtaken (site : StorageSite) (a : Activations) (f : FrameId) : Prop :=
  site.generic = false ∧ ∃ path ∈ site.path, (replay a f path).isSome = true
    ∧ ∃ e ∈ path.dropLast, (a.layout e.1).hasSpecial = true

theorem replayed?_eq_some (h : site.replayed? a f = some owner) :
    site.generic = false ∧ ∃ path ∈ site.path, replay a f path = some owner := by
  unfold replayed? at h
  split at h
  · cases h
  · next hgeneric =>
      obtain ⟨path, hpath, hreplay⟩ := Option.bind_eq_some_iff.mp h
      exact ⟨eq_false_of_ne_true hgeneric, path, hpath, hreplay⟩

theorem relearn_eq {owner : FrameId} {path : Path} {a' : Activations} (sound : a.Sound)
    (has : a.HasFrame f) (walks : Walks a f owner path a') :
    site.relearn a f t = ((a'.materialize owner t).1, { site with path := some path },
      (a'.materialize owner t).2) := by
  unfold relearn
  rw [locate_eq sound has walks]

/-- A site answers by the way that it goes, else as a walk does. -/
theorem answer_eq (sound : a.Sound) (has : a.HasFrame f) :
    site.answer a f t = match site.replayed? a f with
      | some owner => a.materialize owner t
      | none => a.storageOf f t := by
  obtain ⟨owner, path, a', hwalks⟩ := exists_walks sound f
  unfold answer storageOf replayed?
  cases hgeneric : site.generic with
  | true => rfl
  | false =>
      rw [if_neg Bool.false_ne_true, if_neg Bool.false_ne_true]
      cases hpath : site.path with
      | none =>
          dsimp only [Option.bind]
          rw [relearn_eq sound has hwalks, storageOf_eq sound has hwalks]
      | some remembered =>
          dsimp only [Option.bind]
          cases replay a f remembered with
          | some owner => rfl
          | none =>
              dsimp only
              split
              · rfl
              · rw [relearn_eq sound has hwalks, storageOf_eq sound has hwalks]

/-- What a request through a site may change: activations as a walk does, and
the way that it remembers to the one just walked. -/
theorem storageOf_changes (slot : FrameLayout → String → Prop) (sound : a.Sound)
    (has : a.HasFrame f) (trails : ∀ path ∈ site.path, Trail a path) {s : RecordId}
    {site' : StorageSite} {a' : Activations} (h : site.storageOf a f t = (s, site', a')) :
    Evolves slot a a' ∧ ∀ path ∈ site'.path, path ∈ site.path
      ∨ ∃ owner a'', Walks a f owner path a'' ∧ Evolves slot a'' a' := by
  obtain ⟨owner, path, a'', hwalks⟩ := exists_walks sound f
  obtain ⟨hevolves, howner⟩ := hwalks.evolves slot sound has
  have hmaterialize : Change slot a'' (a''.materialize owner t).2 := .materialize t howner
  have hplain := evolves_storageOf slot sound has t
  unfold storageOf at h
  split at h
  · cases h
    exact ⟨hplain, fun path mem => .inl mem⟩
  · split at h
    · rw [relearn_eq sound has hwalks] at h
      cases h
      refine ⟨.step hevolves hmaterialize, fun path mem => .inr ?_⟩
      obtain rfl := Option.some.inj mem
      exact ⟨owner, a'', hwalks, .step (.refl _) hmaterialize⟩
    · next remembered hpath =>
        split at h
        · next owner' hreplay =>
            have hreplays := replays_of_replay (trails remembered hpath).ne_nil hreplay
            cases h
            exact ⟨.step (.refl _) (.materialize t (hreplays.hasFrame sound has)),
              fun path mem => .inl mem⟩
        · dsimp only at h
          split at h
          · cases h
            exact ⟨hplain, fun path mem => by cases mem⟩
          · rw [relearn_eq sound has hwalks] at h
            cases h
            refine ⟨.step hevolves hmaterialize, fun path mem => .inr ?_⟩
            obtain rfl := Option.some.inj mem
            exact ⟨owner, a'', hwalks, .step (.refl _) hmaterialize⟩

/-- A site finds the record that a walk finds, unless it is overtaken. -/
theorem answer_eq_iff (sound : a.Sound) (has : a.HasFrame f)
    (trails : ∀ path ∈ site.path, Trail a path) :
    site.answer a f t = a.storageOf f t ↔ ¬ site.Overtaken a f := by
  rw [answer_eq sound has]
  cases hreplayed : site.replayed? a f with
  | none =>
      -- then the site walks, and what it remembers does not matter
      refine iff_of_true rfl ?_
      intro h
      obtain ⟨hgeneric, path, mem, hreplay, -⟩ := h
      unfold replayed? at hreplayed
      rw [hgeneric, if_neg Bool.false_ne_true, mem] at hreplayed
      rw [show replay a f path = none from hreplayed] at hreplay
      cases hreplay
  | some owner =>
      obtain ⟨hgeneric, path, hpath, hreplay⟩ := replayed?_eq_some hreplayed
      have htrail := trails path hpath
      have hreplays := replays_of_replay htrail.ne_nil hreplay
      constructor
      · intro heq h
        obtain ⟨-, path', mem, -, hspecial⟩ := h
        obtain rfl := Option.some.inj (hpath.symm.trans mem)
        obtain ⟨owner', _, a', hwalks⟩ := exists_walks sound f
        obtain ⟨rfl, hne⟩ := hreplays.ne_of_special sound hspecial hwalks
        have hrecords : a'.materialize owner t = a'.materialize owner' t :=
          heq.trans (storageOf_eq sound has hwalks t)
        have howner := materialize_inj sound (hreplays.hasFrame sound has)
          (hwalks.evolves anySlot sound has).2 hrecords
        exact hne (congrArg FrameId.index howner).symm
      · intro hnot
        have hplain : ∀ e ∈ path.dropLast, (a.layout e.1).hasSpecial = false := by
          intro e mem
          rw [← Bool.not_eq_true]
          exact fun special => hnot ⟨hgeneric, path, hpath, by rw [hreplay]; rfl, e, mem, special⟩
        exact (storageOf_eq sound has (hreplays.walks hplain htrail.ends) t).symm

/-- A site whose ways can all be trusted is not overtaken. -/
theorem not_overtaken (trusty : ∀ path ∈ site.path, Trusty a path) : ¬ site.Overtaken a f := by
  intro h
  obtain ⟨-, path, mem, hreplay, e, hmem, special⟩ := h
  obtain ⟨owner, hreplay⟩ := Option.isSome_iff_exists.mp hreplay
  have hreplays := replays_of_replay (trusty path mem).ne_nil hreplay
  have hplain := (trusty path mem).plain e hmem
    (hreplays.version_eq e (List.dropLast_subset path hmem))
  rw [hplain] at special
  cases special

end StorageSite

-- ========================================================== a run of a scope

namespace Scope

variable {s s' : Scope} {actions : List Action} {slot : FrameLayout → String → Prop}

/-- Activations are sound, and sites remember ways that were walked. -/
structure Sound (s : Scope) : Prop where
  activations : s.activations.Sound
  trails : ∀ site ∈ s.sites, ∀ path ∈ site.path, Trail s.activations path

/-- Layouts are orderly, and what sites remember can be trusted. -/
structure Trusted (s : Scope) : Prop extends Sound s where
  layouts : s.activations.Orderly
  trusty : ∀ site ∈ s.sites, ∀ path ∈ site.path, Trusty s.activations path

/-- What an action may do: activations evolve, and a way that a site remembers
is an old one, or was just walked. -/
structure Acts (slot : FrameLayout → String → Prop) (s s' : Scope) : Prop where
  evolves : Evolves slot s.activations s'.activations
  paths : ∀ site ∈ s'.sites, ∀ path ∈ site.path,
    (∃ site₀ ∈ s.sites, path ∈ site₀.path)
      ∨ ∃ f owner a', s.activations.HasFrame f ∧ Walks s.activations f owner path a'
        ∧ Evolves slot a' s'.activations

theorem act_requestAt {i : Nat} {f : FrameId} {t : ThreadId} {site site' : StorageSite}
    {r : RecordId} {a : Activations} (here : s.sites[i]? = some site)
    (h : site.storageOf s.activations f t = (r, site', a)) :
    s.act (.requestAt i f t) = ⟨a, s.sites.set i site'⟩ := by
  unfold act
  dsimp only
  rw [here]
  dsimp only
  rw [h]

/-- An action that changes activations only. -/
theorem Acts.of_evolves {a : Activations} (evolves : Evolves slot s.activations a) :
    Acts slot s { s with activations := a } where
  evolves := evolves
  paths site mem _ hpath := .inl ⟨site, mem, hpath⟩

/-- An action does no more than that, and adds the slots that are allowed. -/
theorem Sound.acts (slot : FrameLayout → String → Prop) (sound : s.Sound) {x : Action}
    (valid : x.Valid s)
    (slots : ∀ l name, x = .addSlot l name → slot (s.activations.layout l) name) :
    Acts slot s (s.act x) := by
  cases x with
  | addLayout name special =>
      exact .of_evolves (.step (.refl _) (.addLayout _ name special))
  | addFrame layout declaration =>
      exact .of_evolves (.step (.refl _) (.addFrame valid.1 valid.2))
  | addSlot layout name =>
      exact .of_evolves (.step (.refl _) (.addSlot valid (slots layout name rfl)))
  | openSite limits =>
      refine ⟨.refl _, fun site mem path hpath => ?_⟩
      rcases List.mem_append.mp mem with hold | hnew
      · exact .inl ⟨site, hold, hpath⟩
      · rw [List.mem_singleton.mp hnew] at hpath
        cases hpath
  | request f t => exact .of_evolves (evolves_storageOf slot sound.activations valid t)
  | requestAt i f t =>
      obtain ⟨hlt, has⟩ := valid
      have hmem : s.sites[i] ∈ s.sites := List.getElem_mem hlt
      obtain ⟨r, site', a', hstorage⟩ : ∃ r site' a',
          s.sites[i].storageOf s.activations f t = (r, site', a') := ⟨_, _, _, rfl⟩
      obtain ⟨hevolves, hpaths⟩ := StorageSite.storageOf_changes slot
        sound.activations has (sound.trails _ hmem) hstorage
      rw [act_requestAt (List.getElem?_eq_getElem hlt) hstorage]
      refine ⟨hevolves, fun site mem path hpath => ?_⟩
      rcases List.mem_or_eq_of_mem_set mem with hold | rfl
      · exact .inl ⟨site, hold, hpath⟩
      · rcases hpaths path hpath with hold | ⟨owner, a'', hwalks, hafter⟩
        · exact .inl ⟨_, hmem, hold⟩
        · exact .inr ⟨f, owner, a'', has, hwalks, hafter⟩

theorem Sound.of_acts (sound : s.Sound) (acts : Acts slot s s') : s'.Sound where
  activations := acts.evolves.sound sound.activations
  trails site mem path hpath := by
    rcases acts.paths site mem path hpath with
      ⟨site₀, mem₀, hpath₀⟩ | ⟨f, owner, a', has, hwalks, hafter⟩
    · exact (sound.trails site₀ mem₀ path hpath₀).of_follows acts.evolves.later
    · exact (hwalks.trail sound.activations has).of_follows hafter.later

theorem Trusted.of_acts (trusted : s.Trusted) (acts : Acts orderlySlot s s') : s'.Trusted where
  toSound := trusted.toSound.of_acts acts
  layouts := (acts.evolves.marked trusted.layouts).2
  trusty site mem path hpath := by
    rcases acts.paths site mem path hpath with
      ⟨site₀, mem₀, hpath₀⟩ | ⟨f, owner, a', has, hwalks, hafter⟩
    · exact (trusted.trusty site₀ mem₀ path hpath₀).of_follows
        (acts.evolves.marked trusted.layouts).1
    · have hwalked := (hwalks.evolves orderlySlot trusted.activations has).1
      exact (hwalks.trusty trusted.activations trusted.layouts has).of_follows
        (hafter.marked (hwalked.marked trusted.layouts).2).1

theorem Trusted.act (trusted : s.Trusted) {x : Action} (orderly : x.Orderly s) :
    (s.act x).Trusted := by
  refine trusted.of_acts (trusted.acts orderlySlot orderly.1 ?_)
  intro l name heq
  subst heq
  exact orderly.2

theorem sound_run (valid : Along Action.Valid .empty actions) : (empty.run actions).Sound := by
  refine valid.keeps (fun s x sound valid => ?_) ⟨sound_empty, fun _ mem => by cases mem⟩
  exact sound.of_acts (sound.acts anySlot valid fun _ _ _ => trivial)

theorem trusted_run (orderly : Along Action.Orderly .empty actions) :
    (empty.run actions).Trusted := by
  refine orderly.keeps (fun s x trusted orderly => trusted.act orderly) ?_
  exact
    { activations := sound_empty
      trails := fun _ mem => by cases mem
      layouts := fun _ has => absurd has (Nat.not_lt_zero _)
      trusty := fun _ mem => by cases mem }

/-- After any run, a site finds the record that a walk finds and leaves the
same activations exactly if it is not overtaken. After an orderly run it
always does. -/
theorem answer_eq_storageOf_of_run (valid : Along Action.Valid .empty actions) :
    ∀ site ∈ (empty.run actions).sites, ∀ (f : FrameId) (t : ThreadId),
      (empty.run actions).activations.HasFrame f →
        (site.answer (empty.run actions).activations f t
            = (empty.run actions).activations.storageOf f t
          ↔ ¬ site.Overtaken (empty.run actions).activations f)
        ∧ (Along Action.Orderly .empty actions →
          site.answer (empty.run actions).activations f t
            = (empty.run actions).activations.storageOf f t) := by
  intro site mem f t has
  have hsound := sound_run valid
  have hiff := StorageSite.answer_eq_iff (t := t) hsound.activations has (hsound.trails site mem)
  refine ⟨hiff, fun orderly => hiff.mpr ?_⟩
  exact StorageSite.not_overtaken ((trusted_run orderly).trusty site mem)

/-- A block asks for its record through a site, and finds the method's. Then
the block's code runs at the top, and its layout gets the special slot: a new
one, or the slot of that name that it has already if it was `named`. -/
def blockThenTop (named : Bool) : List Action :=
  [.addLayout "method" false, .addLayout "block" false]
    ++ (if named then [.addSlot ⟨1⟩ specialSlotName] else [])
    ++ [.addFrame ⟨0⟩ none, .addFrame ⟨1⟩ (some ⟨0⟩), .openSite .standard,
      .requestAt 0 ⟨1⟩ ⟨0⟩, .addFrame ⟨1⟩ none, .request ⟨2⟩ ⟨0⟩]

/-- A new slot moves the version, and the site walks again. -/
theorem answer_eq_storageOf_of_new_slot :
    Along Action.Valid .empty (blockThenTop false)
      ∧ Along Action.Orderly .empty (blockThenTop false)
      ∧ (empty.run (blockThenTop false)).sites.length = 1
      ∧ ∀ site ∈ (empty.run (blockThenTop false)).sites,
        site.answer (empty.run (blockThenTop false)).activations ⟨1⟩ ⟨0⟩
          = (empty.run (blockThenTop false)).activations.storageOf ⟨1⟩ ⟨0⟩ := by
  have valid : Along Action.Valid .empty (blockThenTop false) := by decide
  have orderly : Along Action.Orderly .empty (blockThenTop false) := by decide
  refine ⟨valid, orderly, by decide, fun site mem => ?_⟩
  exact (answer_eq_storageOf_of_run valid site mem ⟨1⟩ ⟨0⟩ (by decide)).2 orderly

/-- A slot that was there is adopted and the version stays, so the site finds
the method's record where a walk makes one of the block's own. -/
theorem answer_ne_of_adopted_slot :
    Along Action.Valid .empty (blockThenTop true)
      ∧ ∃ site ∈ (empty.run (blockThenTop true)).sites,
        (site.answer (empty.run (blockThenTop true)).activations ⟨1⟩ ⟨0⟩).1 = ⟨0⟩
          ∧ ((empty.run (blockThenTop true)).activations.storageOf ⟨1⟩ ⟨0⟩).1 = ⟨2⟩ := by
  decide

end Scope

end ObjectModel
