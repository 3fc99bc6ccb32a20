/-
Names of globals lead to storages.

A call on a table may run hooks, which make further calls. All of that comes down
to a few changes of the table itself, so what every such change keeps, a call
keeps (`Stable.call`): by induction on the hook that runs, inside an induction on
the room that is left for hooks.

A table is sound if every name leads to a storage that is there. No change takes
a storage away or binds a name to a place that is not in use, so all calls keep a
table sound; and in a sound table a value that was put into a global is what
reading it answers.
-/
import ObjectModel.Globals.Operation
import ObjectModel.Proofs.Places

namespace ObjectModel.GlobalTable

variable {σ : Type} {t t' : GlobalTable σ} {name : String} {id : StorageId}

-- ========================================================== changes of a table

/-- A relation between tables that every change keeps. -/
structure Stable (R : GlobalTable σ → GlobalTable σ → Prop) : Prop where
  refl (t : GlobalTable σ) : R t t
  trans {t t' t'' : GlobalTable σ} (h : R t t') (h' : R t' t'') : R t t''
  host (t : GlobalTable σ) (host : σ) : R t { t with host }
  storageOf (t : GlobalTable σ) (name : String) : R t (t.storageOf name).2
  replace (t : GlobalTable σ) (id : StorageId) (s : Storage σ) : R t (t.replace id s)
  addAlias (t : GlobalTable σ) (newName oldName : String) : R t (t.addAlias newName oldName)

namespace Stable

variable {R : GlobalTable σ → GlobalTable σ → Prop} {a : Answer} {reply : a.Reply}

theorem put (stable : Stable R) (t : GlobalTable σ) (name : String) (s : Storage σ) :
    R t ((t.storageOf name).2.replace (t.storageOf name).1 s) :=
  stable.trans (stable.storageOf t name) (stable.replace _ _ s)

/-- A hook keeps what the calls keep that it makes. -/
theorem run (stable : Stable R)
    {perform : Perform σ}
    (calls : ∀ {b : Answer} {c : GlobalCall σ b} {t t' : GlobalTable σ} {reply : b.Reply},
      perform b c t = some (reply, t') → R t t') :
    ∀ {a : Answer} {reply : a.Reply} (hook : Hook σ a) {t t' : GlobalTable σ},
      hook.run perform t = some (reply, t') → R t t'
  | _, _, .answer _, t, _, h => by
    cases h
    exact stable.refl t
  | _, _, .host change next, t, _, h =>
    stable.trans (stable.host t _) (run stable calls (next t.host) h)
  | _, _, .call c next, t, t', h => by
    unfold Hook.run at h
    split at h
    · next answer between hcall => exact stable.trans (calls hcall) (run stable calls (next answer) h)
    · cases h

section

variable (stable : Stable R) {enter : Enter σ}
  (hooks : ∀ {b : Answer} {hook : Hook σ b} {t t' : GlobalTable σ} {reply : b.Reply},
    enter b hook t = some (reply, t') → R t t')

include stable hooks

theorem get {s : Storage σ} {v : Except Raise Value} (h : s.get enter t = some (v, t')) :
    R t t' := by
  cases s with
  | plain value defined =>
      cases h
      exact stable.refl t
  | hooked => exact hooks h

theorem isDefined {s : Storage σ} {defined : Bool}
    (h : s.isDefined enter t = some (defined, t')) : R t t' := by
  cases s with
  | plain value defined =>
      cases h
      exact stable.refl t
  | hooked => exact hooks h

/-- A call keeps what the hook keeps that it may need. -/
theorem perform {c : GlobalCall σ a} (h : c.perform enter t = some (reply, t')) : R t t' := by
  cases c with
  | get name =>
      unfold GlobalCall.perform at h
      dsimp only at h
      split at h
      · exact stable.get hooks h
      · cases h
        exact stable.refl t
  | set name value =>
      unfold GlobalCall.perform at h
      dsimp only at h
      split at h
      · cases h
        exact stable.put t name _
      · exact stable.trans (stable.storageOf t name) (hooks h)
  | isDefined name =>
      unfold GlobalCall.perform at h
      dsimp only at h
      split at h
      · exact stable.isDefined hooks h
      · cases h
        exact stable.refl t
  | setInternal name value =>
      cases h
      exact stable.put t name _
  | defineHooked name getter setter defined =>
      cases h
      exact stable.put t name _
  | addAlias newName oldName =>
      cases h
      exact stable.addAlias t newName oldName
  | reader name =>
      have hstorage : t.storageOf name = (reply, t') := Option.some.inj h
      have hkept := stable.storageOf t name
      rw [hstorage] at hkept
      exact hkept
  | read id =>
      have hread : (t.storage id).get enter t = some (reply, t') := h
      exact stable.get hooks hread
  | isDefinedAt id =>
      have hasked : (t.storage id).isDefined enter t = some (reply, t') := h
      exact stable.isDefined hooks hasked
  | names =>
      cases h
      exact stable.refl t

end

/-- Whatever room there is for hooks, what runs in it keeps the relation. -/
theorem enterWithin (stable : Stable R) : ∀ (depth : Nat) {a : Answer} {reply : a.Reply}
    {hook : Hook σ a} {t t' : GlobalTable σ},
      Hook.enterWithin depth a hook t = some (reply, t') → R t t' := by
  intro depth
  induction depth with
  | zero => intro a reply hook t t' h; cases h
  | succ depth ih => intro a reply hook t t' h; exact stable.run (stable.perform ih) hook h

theorem call (stable : Stable R) {c : GlobalCall σ a} (h : t.call c = some (reply, t')) : R t t' :=
  stable.perform (stable.enterWithin hookDepth) h

/-- An operation keeps the relation, whether or not its call comes back. -/
theorem act (stable : Stable R) (t : GlobalTable σ) (op : GlobalOperation σ) : R t (op.act t) := by
  cases op with
  | call c =>
      unfold GlobalOperation.act
      dsimp only
      split
      · next h => exact stable.call h
      · exact stable.refl t
  | host change => exact stable.host t _

end Stable

-- ============================================================ what calls come to

theorem get_of_bound (bound : t.names.get? name = some id) : t.get name = t.read id := by
  unfold get read call GlobalCall.perform
  dsimp only
  rw [bound]

theorem get_of_free (free : t.names.get? name = none) : t.get name = some (.ok .nil, t) := by
  unfold get call GlobalCall.perform
  dsimp only
  rw [free]

theorem isDefined_of_bound (bound : t.names.get? name = some id) :
    t.isDefined name = t.isDefinedAt id := by
  unfold isDefined isDefinedAt call GlobalCall.perform
  dsimp only
  rw [bound]

theorem isDefined_of_free (free : t.names.get? name = none) :
    t.isDefined name = some (false, t) := by
  unfold isDefined call GlobalCall.perform
  dsimp only
  rw [free]

theorem read_eq (t : GlobalTable σ) (id : StorageId) :
    t.read id = (t.storage id).get Hook.enter t := rfl

-- ================================================================ sound tables

/-- Every name leads to a storage that is there. -/
structure Sound (t : GlobalTable σ) : Prop where
  leads : ∀ {name : String} {id : StorageId}, t.names.get? name = some id →
    id.index < t.storages.length

theorem sound_empty (host : σ) : (empty host).Sound := ⟨nofun⟩

/-- A name bound to a storage that is there. -/
theorem Sound.bindName (sound : t.Sound) (here : id.index < t.storages.length) (name : String) :
    ({ t with names := t.names.set name id } : GlobalTable σ).Sound := by
  refine ⟨fun {other} {id'} h => ?_⟩
  by_cases heq : other = name
  · subst heq
    rw [Bindings.get?_set_self] at h
    cases h
    exact here
  · rw [Bindings.get?_set_of_ne heq] at h
    exact sound.leads h

@[simp] theorem length_replace (t : GlobalTable σ) (id : StorageId) (storage : Storage σ) :
    (t.replace id storage).storages.length = t.storages.length := by
  unfold replace
  exact List.length_modify ..

theorem Sound.replace (sound : t.Sound) (id : StorageId) (storage : Storage σ) :
    (t.replace id storage).Sound where
  leads h := by
    rw [length_replace]
    exact sound.leads h

/-- The storage of a name is there once it was asked for, and the name leads to
it. -/
theorem Sound.storageOf (sound : t.Sound) (name : String) :
    (t.storageOf name).2.Sound
      ∧ (t.storageOf name).1.index < (t.storageOf name).2.storages.length
      ∧ (t.storageOf name).2.names.get? name = some (t.storageOf name).1 := by
  unfold GlobalTable.storageOf
  split
  · next id h => exact ⟨sound, sound.leads h, h⟩
  · have hgrown : ({ t with storages := t.storages ++ [.blank] } : GlobalTable σ).Sound := by
      refine ⟨fun h => ?_⟩
      have hlt := sound.leads h
      rw [List.length_append]
      omega
    have hlast : (⟨t.storages.length⟩ : StorageId).index
        < (t.storages ++ [Storage.blank]).length := by
      rw [List.length_append, List.length_singleton]
      exact Nat.lt_succ_self _
    exact ⟨hgrown.bindName hlast name, hlast, Bindings.get?_set_self _ _ _⟩

theorem Sound.reader (sound : t.Sound) (h : t.reader name = (id, t')) : t'.Sound := by
  have hsound := (sound.storageOf name).1
  rw [show t.storageOf name = (id, t') from h] at hsound
  exact hsound

theorem Sound.setInternal (sound : t.Sound) (name : String) (value : Value) :
    (t.setInternal name value).Sound :=
  (sound.storageOf name).1.replace _ _

theorem Sound.addAlias (sound : t.Sound) (newName oldName : String) :
    (t.addAlias newName oldName).Sound := by
  obtain ⟨hsound, here, -⟩ := sound.storageOf oldName
  exact hsound.bindName here newName

theorem stable_sound : Stable fun t t' : GlobalTable σ => t.Sound → t'.Sound where
  refl _ := id
  trans h h' := fun sound => h' (h sound)
  host _ _ := fun sound => ⟨sound.leads⟩
  storageOf _ name := fun sound => (sound.storageOf name).1
  replace _ id s := fun sound => sound.replace id s
  addAlias _ newName oldName := fun sound => sound.addAlias newName oldName

/-- A value that was put into a global is what it holds. -/
theorem Sound.get_setInternal (sound : t.Sound) (name : String) (value : Value) :
    (t.setInternal name value).get name = some (.ok value, t.setInternal name value) := by
  obtain ⟨-, here, hname⟩ := sound.storageOf name
  have hstorage : (t.setInternal name value).storage (t.storageOf name).1 = .plain value true := by
    unfold storage GlobalTable.setInternal GlobalTable.replace
    rw [getD_modify, if_pos ⟨rfl, here⟩]
  rw [get_of_bound (t := t.setInternal name value) hname, read_eq, hstorage]
  rfl

-- ================================================================ bound names

/-- A name leads to the storage that it was given. -/
theorem names_storageOf_self (t : GlobalTable σ) (name : String) :
    (t.storageOf name).2.names.get? name = some (t.storageOf name).1 := by
  unfold storageOf
  split
  · next id h => exact h
  · exact Bindings.get?_set_self _ _ _

/-- Asking for a storage moves no name that is bound. -/
theorem names_storageOf (bound : t.names.get? name = some id) (other : String) :
    (t.storageOf other).2.names.get? name = some id := by
  unfold storageOf
  split
  · exact bound
  · next free =>
    have hne : name ≠ other := by
      rintro rfl
      rw [bound] at free
      cases free
    exact (Bindings.get?_set_of_ne hne _ _).trans bound

/-- A bound name leads where it led, unless it is the new name of an alias that
leads elsewhere. -/
theorem names_addAlias (bound : t.names.get? name = some id) {newName oldName : String}
    (kept : newName = name → t.names.get? oldName = some id) :
    (t.addAlias newName oldName).names.get? name = some id := by
  change ((t.storageOf oldName).2.names.set newName (t.storageOf oldName).1).get? name = some id
  by_cases hname : name = newName
  · subst hname
    rw [Bindings.get?_set_self, ← names_storageOf_self t oldName]
    exact names_storageOf (kept rfl) oldName
  · rw [Bindings.get?_set_of_ne hname]
    exact names_storageOf bound oldName

/-- A bound name leads where it led, unless the operation moves it. -/
theorem names_of_not_moves {op : GlobalOperation σ} (bound : t.names.get? name = some id)
    (kept : ¬ op.Moves t name) : (op.act t).names.get? name = some id :=
  Decidable.byContradiction fun elsewhere => kept ⟨id, bound, elsewhere⟩

theorem not_moves_addAlias {newName oldName : String} (ne : newName ≠ name) :
    ¬ (GlobalOperation.call (.addAlias newName oldName)).Moves t name := by
  rintro ⟨id, bound, moved⟩
  exact moved (names_addAlias bound fun same => absurd same ne)

theorem not_moves_setInternal (other : String) (value : Value) :
    ¬ (GlobalOperation.call (.setInternal other value)).Moves t name := by
  rintro ⟨id, bound, moved⟩
  exact moved (names_storageOf bound other)

theorem not_moves_defineHooked (other : String) (hooks : Hooks σ) :
    ¬ (GlobalOperation.call
      (.defineHooked other hooks.getter hooks.setter hooks.defined)).Moves t name := by
  rintro ⟨id, bound, moved⟩
  exact moved (names_storageOf bound other)

theorem not_moves_host (change : σ → σ) : ¬ (GlobalOperation.host change).Moves t name := by
  rintro ⟨id, bound, moved⟩
  exact moved bound

end ObjectModel.GlobalTable
