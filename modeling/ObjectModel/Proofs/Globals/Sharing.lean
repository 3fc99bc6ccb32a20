/-
Globals that share a storage.

Aliases and readers lead to the storage of the global that they were made for.
What is done through one name is seen through every access that leads to the same
storage (`Sees`), and does not show elsewhere (`entry_act_of_not_touches`):
accesses share all or nothing, and only an alias of a name can make that name
share with others than before.

One thing shows past storages: hooks run in the state of the host, and what a hook
of one global changes there the hooks of another one may look at.
-/
import Mathlib.Data.List.Induction
import ObjectModel.Proofs.Globals.Entries
import ObjectModel.Run

namespace ObjectModel

variable {σ : Type}

-- ============================================================ what is touched

namespace GlobalAccess

/-- An access to the global of that name, or to another name's if they share. -/
def Shares (t : GlobalTable σ) (x : GlobalAccess) (name : String) : Prop :=
  x = .named name ∨ ∃ id, t.names.get? name = some id ∧ x.storage? t = some id

/-- The storage that an access leads to is there. -/
def Leads (t : GlobalTable σ) (x : GlobalAccess) : Prop :=
  ∀ id, x.storage? t = some id → id.index < t.storages.length

/-- An access reads, and is defined, as what is in this storage says. -/
structure Shows (t : GlobalTable σ) (x : GlobalAccess) (s : Storage σ) : Prop where
  get_eq : x.get t = s.get Hook.enter t
  isDefined_eq : x.isDefined t = s.isDefined Hook.enter t

end GlobalAccess

namespace GlobalOperation

/-- The name of the global whose storage an operation reaches for, to put something
there. -/
def global? : GlobalOperation σ → Option String
  | .call (.set name _) => some name
  | .call (.setInternal name _) => some name
  | .call (.defineHooked name _ _ _) => some name
  | _ => none

/-- An operation on the global of an access, or an alias that takes its name. -/
def Touches (t : GlobalTable σ) (x : GlobalAccess) (op : GlobalOperation σ) : Prop :=
  (∃ name, op.global? = some name ∧ x.Shares t name)
    ∨ ∃ name oldName, op = .call (.addAlias name oldName) ∧ x = .named name

/-- The storage that an operation assigns to. -/
def assigns? (t : GlobalTable σ) : GlobalOperation σ → Option StorageId
  | .call (.set name _) => some (t.storageOf name).1
  | .call (.setInternal name _) => some (t.storageOf name).1
  | _ => none

variable {t : GlobalTable σ} {op : GlobalOperation σ}

/-- A plain entry is put somewhere by assigning to it only. -/
theorem assigns_of_puts {id : StorageId} {value : Value} {defined : Bool}
    (puts : op.puts? t = some (id, .plain value defined)) :
    defined = true ∧ op.assigns? t = some id := by
  cases op with
  | host change => cases puts
  | call c =>
      cases c with
      | set name value =>
          unfold puts? at puts
          dsimp only at puts
          split at puts <;> cases puts
          exact ⟨rfl, rfl⟩
      | setInternal name value =>
          cases puts
          exact ⟨rfl, rfl⟩
      | _ => cases puts

/-- Assigning to a plain global puts something into its storage. -/
theorem puts_of_assigns {id : StorageId} {value : Value} {defined : Bool}
    (assigns : op.assigns? t = some id) (plain : t.storage id = .plain value defined) :
    ∃ s, op.puts? t = some (id, s) := by
  cases op with
  | host change => cases assigns
  | call c =>
      cases c with
      | set name new =>
          cases assigns
          exact ⟨_, puts?_of_plain plain new⟩
      | setInternal name new =>
          cases assigns
          exact ⟨_, rfl⟩
      | _ => cases assigns

/-- What is put somewhere is put into the storage of the name. -/
theorem place_of_puts {place : StorageId} {s : Storage σ} (puts : op.puts? t = some (place, s)) :
    ∃ name, op.global? = some name ∧ place = (t.storageOf name).1 := by
  cases op with
  | host change => cases puts
  | call c =>
      cases c with
      | set name value =>
          unfold puts? at puts
          dsimp only at puts
          split at puts <;> cases puts
          exact ⟨name, rfl, rfl⟩
      | setInternal name value =>
          cases puts
          exact ⟨name, rfl, rfl⟩
      | defineHooked name getter setter defined =>
          cases puts
          exact ⟨name, rfl, rfl⟩
      | _ => cases puts

/-- An operation that rebinds the name of an access touches it. -/
theorem touches_of_rebinds {name : String} (rebinds : op.Rebinds t name) :
    op.Touches t (.named name) ∧ op.puts? t = none := by
  cases op with
  | host change => exact rebinds.elim
  | call c =>
      cases c with
      | addAlias newName oldName => exact ⟨.inr ⟨newName, oldName, rfl, by rw [rebinds.1]⟩, rfl⟩
      | _ => exact rebinds.elim

end GlobalOperation

-- ================================================================== one step

namespace GlobalTable

variable {t : GlobalTable σ} {name : String} {id : StorageId} {x : GlobalAccess}
  {op : GlobalOperation σ}

theorem Sound.leads_named (sound : t.Sound) (name : String) :
    (GlobalAccess.named name).Leads t :=
  fun _ h => sound.leads h

/-- An access leads where it led, unless the operation rebinds its name. -/
theorem storage?_act (aloof : t.Aloof) (leads : x.storage? t = some id)
    (kept : ∀ name, x = .named name → ¬ op.Rebinds t name) :
    x.storage? (op.act t) = some id := by
  cases x with
  | named name => exact names_act aloof leads (kept name rfl)
  | reader r => exact leads

/-- A name is given no storage by asking for another one's. -/
theorem names_storageOf_of_free {other : String} (free : t.names.get? name = none)
    (ne : name ≠ other) : (t.storageOf other).2.names.get? name = none := by
  unfold storageOf
  split
  · exact free
  · exact (Bindings.get?_set_of_ne ne _ _).trans free

/-- A name without a storage has none after an operation that does not touch it,
or leads to one that nothing was put into. -/
theorem names_layout_of_free (free : t.names.get? name = none)
    (apart : ¬ op.Touches t (.named name)) :
    (op.layout t).names.get? name = none
      ∨ ((op.layout t).names.get? name = some (t.storageOf name).1 ∧ op.puts? t = none) := by
  have hother : ∀ other, op.global? = some other → name ≠ other := by
    rintro other hglobal rfl
    exact apart (.inl ⟨name, hglobal, .inl rfl⟩)
  -- a storage that is asked for without putting anything into it
  have hasked : ∀ other, (t.storageOf other).2.names.get? name = none
      ∨ (t.storageOf other).2.names.get? name = some (t.storageOf name).1 := by
    intro other
    by_cases heq : name = other
    · subst heq
      exact .inr (t.names_storageOf_self name)
    · exact .inl (names_storageOf_of_free free heq)
  cases op with
  | host change => exact .inl free
  | call c =>
      cases c with
      | set other value =>
          left
          unfold GlobalOperation.layout
          dsimp only
          split
          · exact names_storageOf_of_free free (hother other rfl)
          · exact names_storageOf_of_free free (hother other rfl)
      | setInternal other value => exact .inl (names_storageOf_of_free free (hother other rfl))
      | defineHooked other getter setter defined =>
          exact .inl (names_storageOf_of_free free (hother other rfl))
      | addAlias newName oldName =>
          have hne : name ≠ newName := by
            rintro rfl
            exact apart (.inr ⟨name, oldName, rfl, rfl⟩)
          have hnames : (t.addAlias newName oldName).names.get? name
              = (t.storageOf oldName).2.names.get? name := Bindings.get?_set_of_ne hne _ _
          change (t.addAlias newName oldName).names.get? name = none
            ∨ ((t.addAlias newName oldName).names.get? name = _ ∧ _)
          rw [hnames]
          exact (hasked oldName).imp_right fun h => ⟨h, rfl⟩
      | reader other => exact (hasked other).imp_right fun h => ⟨h, rfl⟩
      | get | isDefined | read | isDefinedAt | names => exact .inl free

/-- What an operation does not touch keeps its entry. -/
theorem entry_act_of_not_touches (aloof : t.Aloof) (there : x.Leads t)
    (apart : ¬ op.Touches t x) : x.entry (op.act t) = x.entry t := by
  cases hleads : x.storage? t with
  | some id =>
      have hkept : x.storage? (op.act t) = some id := by
        refine storage?_act aloof hleads fun name hname rebinds => apart ?_
        rw [hname]
        exact (GlobalOperation.touches_of_rebinds rebinds).1
      rw [GlobalAccess.entry_of_storage hkept, GlobalAccess.entry_of_storage hleads]
      refine storage_act_of_ne aloof fun place s puts heq => ?_
      -- the storage put into would be the one that the access leads to
      subst heq
      obtain ⟨name, hglobal, hplace⟩ := GlobalOperation.place_of_puts puts
      cases hname : t.names.get? name with
      | some id' =>
          rw [storageOf_of_bound hname] at hplace
          subst hplace
          exact apart (.inl ⟨name, hglobal, .inr ⟨_, hname, hleads⟩⟩)
      | none =>
          have hlt := there id hleads
          rw [hplace, storageOf_of_free hname] at hlt
          exact Nat.lt_irrefl _ hlt
  | none =>
      cases x with
      | reader r => cases hleads
      | named name =>
          rw [GlobalAccess.entry_of_none hleads]
          obtain ⟨host, hact, -⟩ := aloof.exists_act op
          have hnames : (op.act t).names.get? name = (op.layout t).names.get? name := by rw [hact]
          rcases names_layout_of_free hleads apart with hfree | ⟨hbound, hputs⟩
          · exact GlobalAccess.entry_of_none (x := .named name) (hnames.trans hfree)
          · rw [GlobalAccess.entry_of_storage (x := .named name) (hnames.trans hbound),
              storage_act_of_ne aloof (fun place s puts => by rw [hputs] at puts; cases puts),
              storage_of_name]
            exact GlobalAccess.entry_of_none (x := .named name) hleads

/-- So it answers as it did, wherever its hooks see the host as it was. -/
theorem answers_act_of_not_touches {β : Type} {view : σ → β} (aloof : t.Aloof)
    (there : x.Leads t) (apart : ¬ op.Touches t x) (looks : (x.entry t).LooksAt view)
    (same : view (op.act t).host = view t.host) :
    x.value? (op.act t) = x.value? t ∧ x.defined? (op.act t) = x.defined? t :=
  GlobalAccess.answers_of_looksAt (aloof.entry x) (entry_act_of_not_touches aloof there apart)
    looks same

theorem shows_entry (t : GlobalTable σ) (x : GlobalAccess) : x.Shows t (x.entry t) :=
  ⟨x.get_eq t, x.isDefined_eq t⟩

/-- What is put into a storage is what every access to it shows. -/
theorem shows_act_of_puts (op : GlobalOperation σ) {s : Storage σ} (sound : t.Sound)
    (aloof : t.Aloof) (leads : x.storage? t = some id) (puts : op.puts? t = some (id, s)) :
    x.Shows (op.act t) s := by
  have hleads : x.storage? (op.act t) = some id := by
    refine storage?_act aloof leads fun name _ rebinds => ?_
    rw [(GlobalOperation.touches_of_rebinds rebinds).2] at puts
    cases puts
  have hshows := shows_entry (op.act t) x
  rw [GlobalAccess.entry_of_storage hleads, storage_act_of_puts sound aloof puts] at hshows
  exact hshows

/-- No change of a table takes a storage away. -/
theorem stable_length : Stable fun t t' : GlobalTable σ =>
    t.storages.length ≤ t'.storages.length where
  refl _ := Nat.le_refl _
  trans := Nat.le_trans
  host _ _ := Nat.le_refl _
  storageOf t name := length_le_storageOf t name
  replace t id s := Nat.le_of_eq (length_replace t id s).symm
  addAlias t _ oldName := length_le_storageOf t oldName
where
  length_le_storageOf (t : GlobalTable σ) (name : String) :
      t.storages.length ≤ (t.storageOf name).2.storages.length := by
    unfold storageOf
    split
    · exact Nat.le_refl _
    · rw [List.length_append]
      exact Nat.le_add_right ..

end GlobalTable

-- ============================================================ one storage, seen

namespace GlobalAccess

variable {t : GlobalTable σ} {x : GlobalAccess} {name : String} {id : StorageId}

/-- An access agrees with a global, and shows whatever is done through its name. -/
structure Sees (t : GlobalTable σ) (x : GlobalAccess) (name : String) : Prop where
  /-- Both answer the same, and leave the same behind. -/
  get_eq : x.get t = t.get name
  isDefined_eq : x.isDefined t = t.isDefined name
  /-- An assignment to a plain global. -/
  set_plain {old : Value} {defined : Bool} (plain : (named name).entry t = .plain old defined)
    (value : Value) :
    ∃ t', t.set name value = some (.ok (), t') ∧ x.Shows t' (.plain value true)
  /-- An assignment through hooks, which stay, whatever the setter answers. -/
  set_hooked {hooks : Hooks σ} (hooked : (named name).entry t = .hooked hooks) (value : Value) :
    ∃ reply host, (hooks.setter value).onHost t.host = some (reply, host)
      ∧ t.set name value = some (reply, { t with host })
      ∧ x.Shows { t with host } (.hooked hooks)
  setInternal (value : Value) : x.Shows (t.setInternal name value) (.plain value true)
  defineHooked (hooks : Hooks σ) : x.Shows (t.defineHooked name hooks) (.hooked hooks)

/-- Accesses that lead to one storage see the same. -/
theorem sees_of_leads (sound : t.Sound) (aloof : t.Aloof) (bound : t.names.get? name = some id)
    (leads : x.storage? t = some id) : x.Sees t name := by
  have hplace := GlobalTable.storageOf_of_bound bound
  have hentry : x.entry t = (named name).entry t := by
    rw [entry_of_storage leads, entry_of_storage (x := .named name) bound]
  have hstorage := t.storage_of_name name
  constructor
  case get_eq =>
    rw [x.get_eq t, hentry]
    exact ((named name).get_eq t).symm
  case isDefined_eq =>
    rw [x.isDefined_eq t, hentry]
    exact ((named name).isDefined_eq t).symm
  case set_plain =>
    intro old defined plain value
    have hset := GlobalTable.set_of_plain (hstorage.trans plain) value
    have hputs := GlobalOperation.puts?_of_plain (hstorage.trans plain) value
    rw [hplace] at hputs
    have hshows := GlobalTable.shows_act_of_puts _ sound aloof leads hputs
    rw [GlobalTable.act_of_returned hset] at hshows
    exact ⟨_, hset, hshows⟩
  case set_hooked =>
    intro hooks hooked value
    have hhooks := aloof.entry (named name)
    rw [hooked] at hhooks
    obtain ⟨reply, host, honHost, henter⟩ := Hook.exists_enter (hhooks.setter value) t
    have hset := GlobalTable.set_of_hooked (hstorage.trans hooked) value
    rw [hplace] at hset
    refine ⟨reply, host, honHost, hset.trans henter, ?_⟩
    -- the state of the host has no part in where an access leads
    have hkept : x.storage? { t with host } = some id := by
      cases x <;> exact leads
    have hshows := GlobalTable.shows_entry { t with host } x
    rw [entry_of_storage hkept] at hshows
    rw [← hooked, entry_of_storage (x := .named name) bound]
    exact hshows
  case setInternal =>
    intro value
    refine GlobalTable.shows_act_of_puts (.call (.setInternal name value)) sound aloof leads ?_
    unfold GlobalOperation.puts?
    dsimp only
    rw [hplace]
  case defineHooked =>
    intro hooks
    refine GlobalTable.shows_act_of_puts
      (.call (.defineHooked name hooks.getter hooks.setter hooks.defined)) sound aloof leads ?_
    unfold GlobalOperation.puts?
    dsimp only
    rw [hplace]

end GlobalAccess

-- ====================================================================== runs

namespace GlobalTable

variable {t : GlobalTable σ} {name : String} {id : StorageId} {host : σ}
  {ops before after : List (GlobalOperation σ)}

/-- The table after operations on an empty one. -/
def run (host : σ) (ops : List (GlobalOperation σ)) : GlobalTable σ :=
  ops.foldl GlobalOperation.act (empty host)

theorem run_append (host : σ) (before after : List (GlobalOperation σ)) :
    run host (before ++ after) = after.foldl GlobalOperation.act (run host before) :=
  List.foldl_append

theorem run_concat (host : σ) (ops : List (GlobalOperation σ)) (op : GlobalOperation σ) :
    run host (ops ++ [op]) = op.act (run host ops) :=
  run_append host ops [op]

theorem kept_run (aloof : ∀ op ∈ ops, op.Aloof) :
    (run host ops).Sound ∧ (run host ops).Aloof := by
  induction ops using List.reverseRecOn with
  | nil => exact ⟨sound_empty host, aloof_empty host⟩
  | append_singleton ops op ih =>
      obtain ⟨hsound, haloof⟩ := ih fun op mem => aloof op (List.mem_append_left _ mem)
      rw [run_concat]
      exact ⟨stable_sound.act _ op hsound, haloof.act hsound (aloof op List.mem_concat_self)⟩

/-- A storage that was assigned to in a run. -/
def Assigned (host : σ) (ops : List (GlobalOperation σ)) (id : StorageId) : Prop :=
  ∃ before op after, ops = before ++ op :: after ∧ op.assigns? (run host before) = some id

theorem assigned_concat {op : GlobalOperation σ} : Assigned host (ops ++ [op]) id
    ↔ Assigned host ops id ∨ op.assigns? (run host ops) = some id := by
  constructor
  · rintro ⟨before, assigning, after, heq, hassigns⟩
    rcases List.eq_nil_or_concat after with rfl | ⟨after, last, rfl⟩
    · obtain ⟨rfl, hop⟩ := List.append_inj' heq rfl
      cases hop
      exact .inr hassigns
    · rw [List.concat_eq_append, ← List.cons_append, ← List.append_assoc] at heq
      exact .inl ⟨before, assigning, after, (List.append_inj' heq rfl).1, hassigns⟩
  · rintro (⟨before, assigning, after, rfl, hassigns⟩ | hassigns)
    · exact ⟨before, assigning, after ++ [op], by rw [List.append_assoc, List.cons_append],
        hassigns⟩
    · exact ⟨ops, op, [], rfl, hassigns⟩

/-- A storage is plain as long as it is not hooked, and defined once something was
assigned to it. -/
theorem defined_iff_assigned {value : Value} {defined : Bool} (aloof : ∀ op ∈ ops, op.Aloof)
    (plain : (run host ops).storage id = .plain value defined) :
    defined = true ↔ Assigned host ops id := by
  induction ops using List.reverseRecOn generalizing value defined with
  | nil =>
      cases plain
      refine ⟨nofun, ?_⟩
      rintro ⟨before, op, after, heq, -⟩
      exact absurd heq.symm (List.append_ne_nil_of_right_ne_nil _ (List.cons_ne_nil _ _))
  | append_singleton ops op ih =>
      have hrest : ∀ op ∈ ops, op.Aloof := fun op mem => aloof op (List.mem_append_left _ mem)
      obtain ⟨hsound, haloof⟩ : (run host ops).Sound ∧ (run host ops).Aloof := kept_run hrest
      rw [run_concat] at plain
      rw [assigned_concat]
      by_cases hputs : ∃ s, op.puts? (run host ops) = some (id, s)
      · obtain ⟨s, hs⟩ := hputs
        rw [storage_act_of_puts hsound haloof hs] at plain
        subst plain
        obtain ⟨hdefined, hassigns⟩ := GlobalOperation.assigns_of_puts hs
        exact ⟨fun _ => .inr hassigns, fun _ => hdefined⟩
      · have helsewhere : ∀ place s, op.puts? (run host ops) = some (place, s) → id ≠ place := by
          rintro place s hs rfl
          exact hputs ⟨s, hs⟩
        rw [storage_act_of_ne haloof helsewhere] at plain
        rw [ih hrest plain]
        refine ⟨.inl, ?_⟩
        rintro (hassigned | hassigns)
        · exact hassigned
        · exact absurd (GlobalOperation.puts_of_assigns hassigns plain) hputs

/-- A name that is bound in the middle of a run leads to its storage until it is
rebound. -/
theorem names_run (aloof : ∀ op ∈ before ++ after, op.Aloof)
    (bound : (run host before).names.get? name = some id)
    (since : Along GlobalOperation.act (fun t op => ¬ op.Rebinds t name) (run host before) after) :
    (run host (before ++ after)).names.get? name = some id := by
  induction after using List.reverseRecOn with
  | nil =>
      rw [List.append_nil]
      exact bound
  | append_singleton after op ih =>
      rw [← List.append_assoc] at aloof ⊢
      have hrest : ∀ op ∈ before ++ after, op.Aloof := fun op mem =>
        aloof op (List.mem_append_left _ mem)
      obtain ⟨hbefore, hkept, -⟩ := Along.append_iff.mp since
      rw [← run_append] at hkept
      rw [run_concat]
      exact names_act (kept_run hrest).2 (ih hrest hbefore) hkept

/-- Both names of an alias lead to the storage of the old one. -/
theorem names_run_alias {newName oldName : String}
    (aloof : ∀ op ∈ before ++ .call (.addAlias newName oldName) :: after, op.Aloof)
    (since : Along GlobalOperation.act
      (fun t op => ¬ op.Rebinds t newName ∧ ¬ op.Rebinds t oldName)
      (run host (before ++ [.call (.addAlias newName oldName)])) after)
    {z : String} (hz : z = newName ∨ z = oldName) :
    (run host (before ++ .call (.addAlias newName oldName) :: after)).names.get? z
      = some ((run host before).storageOf oldName).1 := by
  rw [List.append_cons] at aloof ⊢
  rcases hz with rfl | rfl
  · refine names_run aloof ?_ (since.imp fun _ _ => And.left)
    rw [run_concat]
    exact Bindings.get?_set_self ..
  · refine names_run aloof ?_ (since.imp fun _ _ => And.right)
    rw [run_concat]
    exact names_addAlias_old ..

/-- The name that a reader was taken for leads to the reader's storage. -/
theorem names_run_reader (aloof : ∀ op ∈ before ++ .call (.reader name) :: after, op.Aloof)
    (since : Along GlobalOperation.act (fun t op => ¬ op.Rebinds t name)
      (run host (before ++ [.call (.reader name)])) after) :
    (run host (before ++ .call (.reader name) :: after)).names.get? name
      = some ((run host before).reader name).1 := by
  rw [List.append_cons] at aloof ⊢
  refine names_run aloof ?_ since
  rw [run_concat]
  exact names_storageOf_self ..

/-- Storages that are there stay. -/
theorem length_le_run (host : σ) (before after : List (GlobalOperation σ)) :
    (run host before).storages.length ≤ (run host (before ++ after)).storages.length := by
  induction after using List.reverseRecOn with
  | nil => exact Nat.le_of_eq (by rw [List.append_nil])
  | append_singleton after op ih =>
      rw [← List.append_assoc, run_concat]
      exact Nat.le_trans ih (stable_length.act _ op)

end GlobalTable

namespace GlobalAccess

/-- A name, or a reader that was taken in a run. -/
def Taken (host : σ) (ops : List (GlobalOperation σ)) : GlobalAccess → Prop
  | .named _ => True
  | .reader id => ∃ before name after, ops = before ++ .call (.reader name) :: after
      ∧ id = ((GlobalTable.run host before).reader name).1

/-- A reader that was taken leads to a storage that is there. -/
theorem leads_of_taken {host : σ} {ops : List (GlobalOperation σ)} {x : GlobalAccess}
    (aloof : ∀ op ∈ ops, op.Aloof) (taken : x.Taken host ops) :
    x.Leads (GlobalTable.run host ops) := by
  cases x with
  | named name => exact (GlobalTable.kept_run aloof).1.leads_named name
  | reader id =>
      obtain ⟨before, name, after, rfl, rfl⟩ := taken
      have hbefore : ∀ op ∈ before, op.Aloof := fun op mem =>
        aloof op (List.mem_append_left _ mem)
      have hsound : (GlobalTable.run host before).Sound := (GlobalTable.kept_run hbefore).1
      have here := (hsound.storageOf name).2.1
      have hlonger := GlobalTable.length_le_run host (before ++ [.call (.reader name)]) after
      rw [GlobalTable.run_concat] at hlonger
      rintro id' hid
      cases hid
      rw [List.append_cons]
      exact Nat.lt_of_lt_of_le here hlonger

end GlobalAccess

-- ==================================================================== result

namespace GlobalTable

/-- What accesses share after a run, and what they do not. -/
structure Sharing (host : σ) (ops : List (GlobalOperation σ)) : Prop where
  /-- An alias and the name that it was made for are one global until one of them
  is rebound, whether or not there was such a global. -/
  aliased {before after : List (GlobalOperation σ)} {newName oldName : String}
    (made : ops = before ++ .call (.addAlias newName oldName) :: after)
    (since : Along GlobalOperation.act
      (fun t op => ¬ op.Rebinds t newName ∧ ¬ op.Rebinds t oldName)
      (run host (before ++ [.call (.addAlias newName oldName)])) after)
    {x y : String} (hx : x = newName ∨ x = oldName) (hy : y = newName ∨ y = oldName) :
    (GlobalAccess.named x).Sees (run host ops) y
  /-- A reader is one with the name that it was taken for until that is rebound. -/
  reader {before after : List (GlobalOperation σ)} {name : String}
    (made : ops = before ++ .call (.reader name) :: after)
    (since : Along GlobalOperation.act (fun t op => ¬ op.Rebinds t name)
      (run host (before ++ [.call (.reader name)])) after) :
    (GlobalAccess.reader ((run host before).reader name).1).Sees (run host ops) name
  /-- It keeps its storage: it is one with any name that leads to it at any time. -/
  kept {before after : List (GlobalOperation σ)} {name other : String}
    (made : ops = before ++ .call (.reader name) :: after)
    (leads : (run host ops).names.get? other = some ((run host before).reader name).1) :
    (GlobalAccess.reader ((run host before).reader name).1).Sees (run host ops) other
  /-- What an operation does not touch keeps its entry. -/
  apart {x : GlobalAccess} {op : GlobalOperation σ} (taken : x.Taken host ops)
    (untouched : ¬ op.Touches (run host ops) x) :
    x.entry (op.act (run host ops)) = x.entry (run host ops)
  /-- It answers what it answered, too, wherever its hooks see the host as it was. -/
  answers {x : GlobalAccess} {op : GlobalOperation σ} {β : Type} {view : σ → β}
    (taken : x.Taken host ops) (untouched : ¬ op.Touches (run host ops) x)
    (looks : (x.entry (run host ops)).LooksAt view)
    (same : view (op.act (run host ops)).host = view (run host ops).host) :
    x.value? (op.act (run host ops)) = x.value? (run host ops)
      ∧ x.defined? (op.act (run host ops)) = x.defined? (run host ops)
  /-- An operation leaves the host as it was, unless it is the host's own or runs a
  hook. -/
  host_kept {op : GlobalOperation σ} (apart : ¬ op.ReachesHost (run host ops)) :
    (op.act (run host ops)).host = (run host ops).host
  /-- An entry is hooked, or it is plain and then defined once something was
  assigned. -/
  entries {x : GlobalAccess} {id : StorageId} (leads : x.storage? (run host ops) = some id) :
    (∃ hooks, x.entry (run host ops) = .hooked hooks)
      ∨ ((∃ value defined, x.entry (run host ops) = .plain value defined)
        ∧ (x.defined? (run host ops) = some true ↔ Assigned host ops id))
  /-- A name without a storage is undefined. -/
  unbound {name : String} (free : (run host ops).names.get? name = none) :
    (run host ops).get name = some (.ok .nil, run host ops)
      ∧ (run host ops).isDefined name = some (false, run host ops)

/-- Where no hook touches the table, accesses that lead to one storage share all
that is done through them, and nothing else. -/
theorem sharing_of_run {host : σ} {ops : List (GlobalOperation σ)}
    (aloof : ∀ op ∈ ops, op.Aloof) : Sharing host ops := by
  obtain ⟨hsound, haloof⟩ : (run host ops).Sound ∧ (run host ops).Aloof := kept_run aloof
  constructor
  case aliased =>
    rintro before after newName oldName rfl since x y hx hy
    exact GlobalAccess.sees_of_leads hsound haloof (names_run_alias aloof since hy)
      (names_run_alias aloof since hx)
  case reader =>
    rintro before after name rfl since
    exact GlobalAccess.sees_of_leads hsound haloof (names_run_reader aloof since) rfl
  case kept =>
    intro before after name other _ leads
    exact GlobalAccess.sees_of_leads hsound haloof leads rfl
  case apart =>
    intro x op taken untouched
    exact entry_act_of_not_touches haloof (GlobalAccess.leads_of_taken aloof taken) untouched
  case answers =>
    intro x op β view taken untouched looks same
    exact answers_act_of_not_touches haloof (GlobalAccess.leads_of_taken aloof taken) untouched
      looks same
  case host_kept =>
    intro op apart
    obtain ⟨host', hact, hkept⟩ := haloof.exists_act op
    rw [hact]
    exact hkept apart
  case entries =>
    intro x id leads
    have hentry := GlobalAccess.entry_of_storage leads
    unfold GlobalAccess.defined?
    rw [x.isDefined_eq, hentry]
    cases hstorage : (run host ops).storage id with
    | hooked hooks => exact .inl ⟨hooks, rfl⟩
    | plain value defined =>
        have hassigned := defined_iff_assigned aloof hstorage
        exact .inr ⟨⟨value, defined, rfl⟩, Option.some_inj.trans hassigned⟩
  case unbound =>
    intro name free
    exact ⟨get_of_free free, isDefined_of_free free⟩

def minusOne : Fixnum := ⟨-1, by decide, by decide⟩

/-- Hooks that read and write a counter of the host's, which counts with small
integers only. -/
def counterHooks : Hooks Fixnum where
  getter := .host id fun count => .answer (.ok (.fixnum count))
  setter v := .host (fun _ => v.asFixnum?.getD minusOne) fun _ => .answer (.ok ())
  defined := .answer true

theorem aloof_counterHooks : counterHooks.Aloof := ⟨fun _ => trivial, fun _ _ => trivial, trivial⟩

/-- Hooking a global to the host's counter. -/
def hookToCounter (name : String) : GlobalOperation Fixnum :=
  .call (.defineHooked name counterHooks.getter counterHooks.setter counterHooks.defined)

/-- A global gets another name before it exists, is hooked through that, and loses
its own. -/
def mergedAndSplit : List (GlobalOperation Fixnum) :=
  [.call (.addAlias "$b" "$a"), .call (.reader "$a"), hookToCounter "$b",
    .call (.set "$a" (.bool true)), .call (.addAlias "$a" "$c"),
    .call (.setInternal "$b" (.bool false))]

theorem aloof_mergedAndSplit : ∀ op ∈ mergedAndSplit, op.Aloof := by
  unfold mergedAndSplit
  simp only [List.forall_mem_cons, List.not_mem_nil, false_implies, implies_true, and_true]
  exact ⟨trivial, trivial, aloof_counterHooks, trivial, trivial, trivial⟩

/-- Up to the last alias the two names are one; after it the reader stays with the
other name, and what is done through its own name passes it by. -/
theorem sharing_of_mergedAndSplit :
    (∀ op ∈ mergedAndSplit, op.Aloof)
      ∧ (GlobalAccess.named "$b").Sees (run .zero (mergedAndSplit.take 4)) "$a"
      ∧ (GlobalAccess.reader ⟨0⟩).Sees (run .zero mergedAndSplit) "$b"
      ∧ (GlobalAccess.reader ⟨0⟩).value?
          ((GlobalOperation.call (.set "$a" (.bool true))).act (run .zero mergedAndSplit))
        = some (.ok (.bool false)) := by
  have hwhole : Sharing .zero mergedAndSplit := sharing_of_run aloof_mergedAndSplit
  have hpart : Sharing .zero (mergedAndSplit.take 4) :=
    sharing_of_run fun op mem => aloof_mergedAndSplit op (List.mem_of_mem_take mem)
  have hmade : mergedAndSplit.take 4
      = [] ++ .call (.addAlias "$b" "$a") :: (mergedAndSplit.take 4).drop 1 := rfl
  have htaken : mergedAndSplit
      = [.call (.addAlias "$b" "$a")] ++ .call (.reader "$a") :: mergedAndSplit.drop 2 := rfl
  refine ⟨aloof_mergedAndSplit, ?_, ?_, ?_⟩
  · refine hpart.aliased hmade ?_ (.inl rfl) (.inr rfl)
    exact ⟨⟨id, id⟩, ⟨id, id⟩, ⟨id, id⟩, trivial⟩
  · exact hwhole.kept htaken rfl
  · have huntouched : ¬ (GlobalOperation.call (.set "$a" (.bool true))).Touches
        (run .zero mergedAndSplit) (.reader ⟨0⟩) := by
      rintro (⟨name, hname, hreader | ⟨id, hbound, hleads⟩⟩ | ⟨name, oldName, hop, -⟩)
      · cases hreader
      · cases hname
        cases hleads
        exact absurd hbound (by decide)
      · cases hop
    have hreader : (GlobalAccess.reader ⟨0⟩).Taken .zero mergedAndSplit := ⟨_, _, _, htaken, rfl⟩
    exact (@Sharing.answers _ _ _ hwhole _ _ _ (fun _ => ()) hreader huntouched trivial rfl).1

/-- Two globals that are hooked to one counter of the host's. -/
def sameCell : List (GlobalOperation Fixnum) := [hookToCounter "$x", hookToCounter "$y"]

/-- Assigning to one of them changes what the other one reads, though they share no
storage and neither hook touches the table. -/
theorem get_ne_of_sameCell :
    (∀ op ∈ sameCell, op.Aloof)
      ∧ ¬ (GlobalOperation.call (.set "$y" (.bool true))).Touches (run .zero sameCell) (.named "$x")
      ∧ (GlobalAccess.named "$x").value?
          ((GlobalOperation.call (.set "$y" (.bool true))).act (run .zero sameCell))
        ≠ (GlobalAccess.named "$x").value? (run .zero sameCell) := by
  refine ⟨?_, ?_, ?_⟩
  · unfold sameCell
    simp only [List.forall_mem_cons, List.not_mem_nil, false_implies, implies_true, and_true]
    exact ⟨aloof_counterHooks, aloof_counterHooks⟩
  · rintro (⟨name, hname, hsame | ⟨id, hy, hx⟩⟩ | ⟨name, oldName, hop, -⟩)
    · cases hname
      exact absurd hsame (by decide)
    · cases hname
      -- each name leads to a storage of its own
      have hdiffer : (run .zero sameCell).names.get? "$y" ≠ (run .zero sameCell).names.get? "$x" := by
        decide
      exact hdiffer (hy.trans hx.symm)
    · cases hop
  · have hafter : (GlobalAccess.named "$x").value?
        ((GlobalOperation.call (.set "$y" (.bool true))).act (run .zero sameCell))
          = some (.ok (.fixnum minusOne)) := rfl
    have hbefore : (GlobalAccess.named "$x").value? (run .zero sameCell)
        = some (.ok (.fixnum .zero)) := rfl
    rw [hafter, hbefore]
    intro hsame
    cases hsame

end GlobalTable

end ObjectModel
