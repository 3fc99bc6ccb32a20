/-
What one operation does to the entries of a table of globals.

The entry of a global is what the storage that an access leads to holds, or a
blank if it leads to none. It is all of the table that an access depends on
(`GlobalAccess.get_eq`, `GlobalAccess.isDefined_eq`); what hooks answer depends
on the host, too.

Hooks that leave the table alone are functions on the state of the host
(`Hook.onHost`). Where all hooks are like that, an operation does two things at
most (`act_eq`): it lays out names and storages anew, putting something into one
storage at most (`GlobalOperation.puts?`), and it moves the host on if it runs a
hook or is the host's own. That names come to lead to new storages does not
show, as new storages are blank.
-/
import ObjectModel.Proofs.Machine.Globals

namespace ObjectModel

variable {σ : Type}

-- ==================================================== hooks that keep to the host

namespace Hook

/-- The hook makes no calls on the table. -/
def Aloof : {a : Answer} → Hook σ a → Prop
  | _, .answer _ => True
  | _, .host _ next => ∀ s, (next s).Aloof
  | _, .call _ _ => False

/-- What a hook makes of the state of the host, up to a call. -/
def onHost : {a : Answer} → Hook σ a → σ → Option (a.Reply × σ)
  | _, .answer reply, s => some (reply, s)
  | _, .host change next, s => (next s).onHost (change s)
  | _, .call _ _, _ => none

/-- A hook that leaves the table alone comes back, having changed the host only. -/
theorem exists_run (perform : Perform σ) : ∀ {a : Answer} (hook : Hook σ a) (t : GlobalTable σ),
    hook.Aloof → ∃ reply host, hook.onHost t.host = some (reply, host)
      ∧ hook.run perform t = some (reply, { t with host })
  | _, .answer reply, t, _ => ⟨reply, t.host, rfl, rfl⟩
  | _, .host change next, t, aloof =>
    exists_run perform (next t.host) { t with host := change t.host } (aloof t.host)

theorem exists_enter {a : Answer} {hook : Hook σ a} (aloof : hook.Aloof) (t : GlobalTable σ) :
    ∃ reply host, hook.onHost t.host = some (reply, host)
      ∧ Hook.enter a hook t = some (reply, { t with host }) :=
  exists_run _ hook t aloof

end Hook

structure Hooks.Aloof (hooks : Hooks σ) : Prop where
  getter : hooks.getter.Aloof
  setter (value : Value) : (hooks.setter value).Aloof
  defined : hooks.defined.Aloof

namespace Storage

/-- What is in a storage makes no calls on the table. -/
def Aloof : Storage σ → Prop
  | .plain _ _ => True
  | .hooked hooks => hooks.Aloof

def isHooked : Storage σ → Bool
  | .plain _ _ => false
  | .hooked _ => true

/-- Reading a storage, and asking whether it is defined, depends on no more of the
host than this view of it. -/
def LooksAt {β : Type} (view : σ → β) : Storage σ → Prop
  | .plain _ _ => True
  | .hooked hooks => ∀ s s', view s = view s' →
      (hooks.getter.onHost s).map Prod.fst = (hooks.getter.onHost s').map Prod.fst
        ∧ (hooks.defined.onHost s).map Prod.fst = (hooks.defined.onHost s').map Prod.fst

end Storage

/-- A way to a global: its name, or a reader that was kept. -/
inductive GlobalAccess where
  | named (name : String)
  | reader (id : StorageId)
deriving DecidableEq

namespace GlobalAccess

/-- The storage that an access leads to. -/
def storage? (t : GlobalTable σ) : GlobalAccess → Option StorageId
  | .named name => t.names.get? name
  | .reader id => some id

/-- What is in that storage, a blank if there is none. -/
def entry (t : GlobalTable σ) (x : GlobalAccess) : Storage σ :=
  match x.storage? t with
  | some id => t.storage id
  | none => .blank

def get (t : GlobalTable σ) : GlobalAccess → Return σ .value
  | .named name => t.get name
  | .reader id => t.read id

def isDefined (t : GlobalTable σ) : GlobalAccess → Return σ .defined
  | .named name => t.isDefined name
  | .reader id => t.isDefinedAt id

/-- What reading answers, whatever it leaves behind. -/
def value? (t : GlobalTable σ) (x : GlobalAccess) : Option (Except Raise Value) :=
  (x.get t).map Prod.fst

def defined? (t : GlobalTable σ) (x : GlobalAccess) : Option Bool := (x.isDefined t).map Prod.fst

variable {t t' : GlobalTable σ} {x : GlobalAccess}

theorem entry_of_storage {id : StorageId} (leads : x.storage? t = some id) :
    x.entry t = t.storage id := by
  unfold entry
  rw [leads]

theorem entry_of_none (free : x.storage? t = none) : x.entry t = .blank := by
  unfold entry
  rw [free]

theorem get_eq (t : GlobalTable σ) (x : GlobalAccess) :
    x.get t = (x.entry t).get Hook.enter t := by
  cases x with
  | reader id => rfl
  | named name =>
      cases h : t.names.get? name with
      | none =>
          rw [entry_of_none (x := .named name) h]
          exact GlobalTable.get_of_free h
      | some id =>
          rw [entry_of_storage (x := .named name) h]
          exact GlobalTable.get_of_bound h

theorem isDefined_eq (t : GlobalTable σ) (x : GlobalAccess) :
    x.isDefined t = (x.entry t).isDefined Hook.enter t := by
  cases x with
  | reader id => rfl
  | named name =>
      cases h : t.names.get? name with
      | none =>
          rw [entry_of_none (x := .named name) h]
          exact GlobalTable.isDefined_of_free h
      | some id =>
          rw [entry_of_storage (x := .named name) h]
          exact GlobalTable.isDefined_of_bound h

/-- An entry that stays answers the same wherever the host looks the same to it. -/
theorem answers_of_looksAt {β : Type} {view : σ → β} (aloof : (x.entry t).Aloof)
    (entry : x.entry t' = x.entry t) (looks : (x.entry t).LooksAt view)
    (same : view t'.host = view t.host) :
    x.value? t' = x.value? t ∧ x.defined? t' = x.defined? t := by
  unfold value? defined?
  rw [x.get_eq t', x.get_eq t, x.isDefined_eq t', x.isDefined_eq t, entry]
  cases hentry : x.entry t with
  | plain value defined => exact ⟨rfl, rfl⟩
  | hooked hooks =>
      rw [hentry] at aloof looks
      obtain ⟨hvalue, hdefined⟩ := looks _ _ same
      obtain ⟨v, _, hv, hget⟩ := Hook.exists_enter aloof.getter t
      obtain ⟨v', _, hv', hget'⟩ := Hook.exists_enter aloof.getter t'
      obtain ⟨d, _, hd, hisDefined⟩ := Hook.exists_enter aloof.defined t
      obtain ⟨d', _, hd', hisDefined'⟩ := Hook.exists_enter aloof.defined t'
      rw [hv', hv] at hvalue
      rw [hd', hd] at hdefined
      unfold Storage.get Storage.isDefined
      dsimp only
      rw [hget, hget', hisDefined, hisDefined']
      exact ⟨hvalue, hdefined⟩

end GlobalAccess

namespace GlobalTable

variable {t : GlobalTable σ} {name : String} {id : StorageId}

/-- No storage has hooks that make calls on the table. -/
def Aloof (t : GlobalTable σ) : Prop := ∀ id, (t.storage id).Aloof

theorem aloof_empty (host : σ) : (empty host).Aloof := fun _ => trivial

theorem Aloof.entry (aloof : t.Aloof) (x : GlobalAccess) : (x.entry t).Aloof := by
  unfold GlobalAccess.entry
  split
  · exact aloof _
  · exact trivial

-- ============================================================ asking for storages

/-- A storage that is made is blank, as is what is not there. -/
theorem storage_storageOf (t : GlobalTable σ) (name : String) (id : StorageId) :
    (t.storageOf name).2.storage id = t.storage id := by
  unfold storageOf
  split
  · rfl
  · obtain ⟨i⟩ := id
    unfold storage
    dsimp only
    by_cases hi : i = t.storages.length
    · subst hi
      rw [getD_concat_self, List.getD_eq_getElem?_getD, List.getElem?_eq_none (Nat.le_refl _),
        Option.getD_none]
    · exact getD_concat_of_ne _ _ _ hi

theorem host_storageOf (t : GlobalTable σ) (name : String) :
    (t.storageOf name).2.host = t.host := by
  unfold storageOf
  split <;> rfl

theorem storageOf_of_bound (bound : t.names.get? name = some id) : t.storageOf name = (id, t) := by
  unfold storageOf
  rw [bound]

/-- What a name that is not bound asks for was not there. -/
theorem storageOf_of_free (free : t.names.get? name = none) :
    (t.storageOf name).1 = ⟨t.storages.length⟩ := by
  unfold storageOf
  rw [free]

/-- The entry of a name is what the storage that it asks for holds. -/
theorem storage_of_name (t : GlobalTable σ) (name : String) :
    t.storage (t.storageOf name).1 = (GlobalAccess.named name).entry t := by
  cases h : t.names.get? name with
  | some id => rw [storageOf_of_bound h, GlobalAccess.entry_of_storage (x := .named name) h]
  | none =>
      rw [storageOf_of_free h, GlobalAccess.entry_of_none (x := .named name) h]
      unfold storage
      rw [List.getD_eq_getElem?_getD, List.getElem?_eq_none (Nat.le_refl _)]
      rfl

/-- What is put in the place of a storage that is there. -/
theorem storage_replace_self (here : id.index < t.storages.length) (s : Storage σ) :
    (t.replace id s).storage id = s := by
  unfold storage replace
  rw [getD_modify, if_pos ⟨rfl, here⟩]

theorem storage_replace_of_ne {other : StorageId} (ne : other ≠ id) (s : Storage σ) :
    (t.replace id s).storage other = t.storage other := by
  obtain ⟨i⟩ := id
  obtain ⟨j⟩ := other
  have hne : j ≠ i := fun heq => ne (congrArg StorageId.mk heq)
  unfold storage replace
  rw [getD_modify, if_neg fun all => hne all.1]

/-- Asking for a storage and putting something into it leaves the others. -/
theorem storage_put_of_ne (ne : id ≠ (t.storageOf name).1) (s : Storage σ) :
    ((t.storageOf name).2.replace (t.storageOf name).1 s).storage id = t.storage id :=
  (storage_replace_of_ne ne s).trans (storage_storageOf t name id)

/-- An alias leads to the storage of the other name, which stays where it was. -/
theorem names_addAlias_old (t : GlobalTable σ) (newName oldName : String) :
    (t.addAlias newName oldName).names.get? oldName = some (t.storageOf oldName).1 := by
  change ((t.storageOf oldName).2.names.set newName (t.storageOf oldName).1).get? oldName = _
  by_cases heq : oldName = newName
  · subst heq
    exact Bindings.get?_set_self ..
  · rw [Bindings.get?_set_of_ne heq]
    exact t.names_storageOf_self oldName

-- ================================================================= assigning

/-- Assigning to a plain global puts the value into its storage. -/
theorem set_of_plain {old : Value} {defined : Bool}
    (plain : t.storage (t.storageOf name).1 = .plain old defined) (value : Value) :
    t.set name value
      = some (.ok (), (t.storageOf name).2.replace (t.storageOf name).1 (.plain value true)) := by
  unfold set call GlobalCall.perform
  dsimp only
  rw [storage_storageOf, plain]

/-- Assigning to a hooked global runs the setter. -/
theorem set_of_hooked {hooks : Hooks σ}
    (hooked : t.storage (t.storageOf name).1 = .hooked hooks) (value : Value) :
    t.set name value = Hook.enter _ (hooks.setter value) (t.storageOf name).2 := by
  unfold set call GlobalCall.perform
  dsimp only
  rw [storage_storageOf, hooked]

end GlobalTable

-- ================================================================ operations

namespace GlobalOperation

/-- The hooks that an operation brings make no calls on the table. -/
def Aloof : GlobalOperation σ → Prop
  | .call (.defineHooked _ getter setter defined) => Hooks.Aloof ⟨getter, setter, defined⟩
  | _ => True

/-- The storage that an operation puts something into, and what it puts there. -/
def puts? (t : GlobalTable σ) : GlobalOperation σ → Option (StorageId × Storage σ)
  | .call (.set name value) =>
    match t.storage (t.storageOf name).1 with
    | .plain _ _ => some ((t.storageOf name).1, .plain value true)
    | .hooked _ => none
  | .call (.setInternal name value) => some ((t.storageOf name).1, .plain value true)
  | .call (.defineHooked name getter setter defined) =>
    some ((t.storageOf name).1, .hooked ⟨getter, setter, defined⟩)
  | _ => none

/-- Names and storages after an operation whose hooks leave them alone. -/
def layout (t : GlobalTable σ) : GlobalOperation σ → GlobalTable σ
  | .call (.set name value) =>
    match t.storage (t.storageOf name).1 with
    | .plain _ _ => (t.storageOf name).2.replace (t.storageOf name).1 (.plain value true)
    | .hooked _ => (t.storageOf name).2
  | .call (.setInternal name value) => t.setInternal name value
  | .call (.defineHooked name getter setter defined) =>
    t.defineHooked name ⟨getter, setter, defined⟩
  | .call (.addAlias newName oldName) => t.addAlias newName oldName
  | .call (.reader name) => (t.reader name).2
  | _ => t

/-- An operation is the host's own, or it runs a hook, which is the host's code. -/
def ReachesHost (t : GlobalTable σ) : GlobalOperation σ → Prop
  | .call (.get name) => ((GlobalAccess.named name).entry t).isHooked = true
  | .call (.set name _) => ((GlobalAccess.named name).entry t).isHooked = true
  | .call (.isDefined name) => ((GlobalAccess.named name).entry t).isHooked = true
  | .call (.read id) => (t.storage id).isHooked = true
  | .call (.isDefinedAt id) => (t.storage id).isHooked = true
  | .host _ => True
  | _ => False

variable {t : GlobalTable σ} {id : StorageId} {op : GlobalOperation σ}

theorem puts?_of_plain {name : String} {old : Value} {defined : Bool}
    (plain : t.storage (t.storageOf name).1 = .plain old defined) (value : Value) :
    puts? t (.call (.set name value)) = some ((t.storageOf name).1, .plain value true) := by
  unfold puts?
  dsimp only
  rw [plain]

/-- What an operation puts somewhere is there afterwards. -/
theorem storage_layout_of_puts {s : Storage σ} (sound : t.Sound) (puts : op.puts? t = some (id, s)) :
    (op.layout t).storage id = s := by
  have here := fun name => (sound.storageOf name).2.1
  cases op with
  | host change => cases puts
  | call c =>
      cases c with
      | set name value =>
          unfold puts? at puts
          unfold layout
          dsimp only at puts ⊢
          cases hstorage : t.storage (t.storageOf name).1 with
          | plain old defined =>
              rw [hstorage] at puts
              cases puts
              exact GlobalTable.storage_replace_self (here name) _
          | hooked hooks =>
              rw [hstorage] at puts
              cases puts
      | setInternal name value =>
          cases puts
          exact GlobalTable.storage_replace_self (here name) _
      | defineHooked name getter setter defined =>
          cases puts
          exact GlobalTable.storage_replace_self (here name) _
      | _ => cases puts

/-- All other storages are as they were. -/
theorem storage_layout_of_ne (elsewhere : ∀ place s, op.puts? t = some (place, s) → id ≠ place) :
    (op.layout t).storage id = t.storage id := by
  cases op with
  | host change => rfl
  | call c =>
      cases c with
      | set name value =>
          unfold layout
          dsimp only
          cases hstorage : t.storage (t.storageOf name).1 with
          | plain old defined =>
              exact GlobalTable.storage_put_of_ne (elsewhere _ _ (puts?_of_plain hstorage value)) _
          | hooked hooks => exact GlobalTable.storage_storageOf t name id
      | setInternal name value => exact GlobalTable.storage_put_of_ne (elsewhere _ _ rfl) _
      | defineHooked name getter setter defined =>
          exact GlobalTable.storage_put_of_ne (elsewhere _ _ rfl) _
      | addAlias newName oldName => exact GlobalTable.storage_storageOf t oldName id
      | reader name => exact GlobalTable.storage_storageOf t name id
      | get | isDefined | read | isDefinedAt | names => rfl

/-- A bound name leads where it led, unless the operation rebinds it. -/
theorem names_layout {name : String} (bound : t.names.get? name = some id)
    (kept : ¬ op.Rebinds t name) : (op.layout t).names.get? name = some id := by
  cases op with
  | host change => exact bound
  | call c =>
      cases c with
      | set other value =>
          unfold layout
          dsimp only
          split
          · exact GlobalTable.names_storageOf bound other
          · exact GlobalTable.names_storageOf bound other
      | setInternal other value => exact GlobalTable.names_storageOf bound other
      | defineHooked other getter setter defined => exact GlobalTable.names_storageOf bound other
      | reader other => exact GlobalTable.names_storageOf bound other
      | addAlias newName oldName =>
          refine GlobalTable.names_addAlias bound fun hname => ?_
          refine Decidable.byContradiction fun hother => kept ⟨hname, ?_⟩
          rw [bound]
          exact hother
      | get | isDefined | read | isDefinedAt | names => exact bound

end GlobalOperation

namespace GlobalTable

variable {t : GlobalTable σ} {name : String} {id : StorageId} {op : GlobalOperation σ}

-- ================================================================== one step

/-- Reading moves the host on at most, and only through a hook. -/
theorem Aloof.exists_get (aloof : t.Aloof) (x : GlobalAccess) : ∃ reply host,
    x.get t = some (reply, { t with host })
      ∧ (¬ (x.entry t).isHooked = true → host = t.host) := by
  have hentry := aloof.entry x
  rw [x.get_eq t]
  cases h : x.entry t with
  | plain value defined => exact ⟨.ok value, t.host, rfl, fun _ => rfl⟩
  | hooked hooks =>
      rw [h] at hentry
      obtain ⟨reply, host, -, henter⟩ := Hook.exists_enter hentry.getter t
      exact ⟨reply, host, henter, fun plain => absurd rfl plain⟩

theorem Aloof.exists_isDefined (aloof : t.Aloof) (x : GlobalAccess) : ∃ reply host,
    x.isDefined t = some (reply, { t with host })
      ∧ (¬ (x.entry t).isHooked = true → host = t.host) := by
  have hentry := aloof.entry x
  rw [x.isDefined_eq t]
  cases h : x.entry t with
  | plain value defined => exact ⟨defined, t.host, rfl, fun _ => rfl⟩
  | hooked hooks =>
      rw [h] at hentry
      obtain ⟨reply, host, -, henter⟩ := Hook.exists_enter hentry.defined t
      exact ⟨reply, host, henter, fun plain => absurd rfl plain⟩

/-- Assigning lays out the table, and moves the host on through a hook. -/
theorem Aloof.exists_set (aloof : t.Aloof) (name : String) (value : Value) : ∃ reply host,
    t.set name value
        = some (reply, { GlobalOperation.layout t (.call (.set name value)) with host })
      ∧ (¬ ((GlobalAccess.named name).entry t).isHooked = true → host = t.host) := by
  have hstorage := t.storage_of_name name
  unfold GlobalOperation.layout
  dsimp only
  rw [hstorage]
  cases h : (GlobalAccess.named name).entry t with
  | plain old defined =>
      exact ⟨.ok (), _, set_of_plain (hstorage.trans h) value, fun _ => host_storageOf t name⟩
  | hooked hooks =>
      have hentry := aloof.entry (.named name)
      rw [h] at hentry
      obtain ⟨reply, host, -, henter⟩ :=
        Hook.exists_enter (hentry.setter value) (t.storageOf name).2
      exact ⟨reply, host, (set_of_hooked (hstorage.trans h) value).trans henter,
        fun plain => absurd rfl plain⟩

theorem act_of_returned {a : Answer} {c : GlobalCall σ a} {reply : a.Reply} {t' : GlobalTable σ}
    (h : t.call c = some (reply, t')) : (GlobalOperation.call c).act t = t' := by
  unfold GlobalOperation.act
  dsimp only
  rw [h]

/-- All that an operation does where hooks leave the table alone: it lays out the
table, and moves the host on if it reaches it. -/
theorem Aloof.exists_act (aloof : t.Aloof) (op : GlobalOperation σ) :
    ∃ host, op.act t = { op.layout t with host } ∧ (¬ op.ReachesHost t → host = t.host) := by
  cases op with
  | host change => exact ⟨change t.host, rfl, fun apart => absurd trivial apart⟩
  | call c =>
      cases c with
      | get name =>
          obtain ⟨_, host, h, hhost⟩ := aloof.exists_get (.named name)
          exact ⟨host, act_of_returned h, hhost⟩
      | set name value =>
          obtain ⟨_, host, h, hhost⟩ := aloof.exists_set name value
          exact ⟨host, act_of_returned h, hhost⟩
      | isDefined name =>
          obtain ⟨_, host, h, hhost⟩ := aloof.exists_isDefined (.named name)
          exact ⟨host, act_of_returned h, hhost⟩
      | read id =>
          obtain ⟨_, host, h, hhost⟩ := aloof.exists_get (.reader id)
          exact ⟨host, act_of_returned h, hhost⟩
      | isDefinedAt id =>
          obtain ⟨_, host, h, hhost⟩ := aloof.exists_isDefined (.reader id)
          exact ⟨host, act_of_returned h, hhost⟩
      | setInternal name value => exact ⟨_, rfl, fun _ => host_storageOf t name⟩
      | defineHooked name getter setter defined => exact ⟨_, rfl, fun _ => host_storageOf t name⟩
      | addAlias newName oldName => exact ⟨_, rfl, fun _ => host_storageOf t oldName⟩
      | reader name => exact ⟨_, rfl, fun _ => host_storageOf t name⟩
      | names => exact ⟨_, rfl, fun _ => rfl⟩

theorem storage_act_of_puts {s : Storage σ} (sound : t.Sound) (aloof : t.Aloof)
    (puts : op.puts? t = some (id, s)) : (op.act t).storage id = s := by
  obtain ⟨host, hact, -⟩ := aloof.exists_act op
  rw [hact]
  exact GlobalOperation.storage_layout_of_puts sound puts

theorem storage_act_of_ne (aloof : t.Aloof)
    (elsewhere : ∀ place s, op.puts? t = some (place, s) → id ≠ place) :
    (op.act t).storage id = t.storage id := by
  obtain ⟨host, hact, -⟩ := aloof.exists_act op
  rw [hact]
  exact GlobalOperation.storage_layout_of_ne elsewhere

/-- No hook being there that would alias names, a bound name leads where it led unless
the operation rebinds it. -/
theorem names_act (aloof : t.Aloof) (bound : t.names.get? name = some id)
    (kept : ¬ op.Rebinds t name) : (op.act t).names.get? name = some id := by
  obtain ⟨host, hact, -⟩ := aloof.exists_act op
  rw [hact]
  exact GlobalOperation.names_layout bound kept

theorem Aloof.act (aloof : t.Aloof) (sound : t.Sound) (keeps : op.Aloof) : (op.act t).Aloof := by
  intro id
  by_cases hputs : ∃ s, op.puts? t = some (id, s)
  · obtain ⟨s, hs⟩ := hputs
    rw [storage_act_of_puts sound aloof hs]
    cases op with
    | host change => cases hs
    | call c =>
        cases c with
        | set name value =>
            unfold GlobalOperation.puts? at hs
            dsimp only at hs
            split at hs <;> cases hs
            exact trivial
        | setInternal name value =>
            cases hs
            exact trivial
        | defineHooked name getter setter defined =>
            cases hs
            exact keeps
        | _ => cases hs
  · rw [storage_act_of_ne aloof]
    · exact aloof id
    · rintro place s hs rfl
      exact hputs ⟨s, hs⟩

end GlobalTable

end ObjectModel
