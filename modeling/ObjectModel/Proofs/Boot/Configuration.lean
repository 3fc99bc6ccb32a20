/-
The error numbers of a configuration, as they were supplied.

A key that is supplied again keeps its place and changes its number, so a
configuration lists every key once, in the order of first supply, with the
number that was supplied last (`supplied_account`). The error numbers are the
entries under one section. They are defined in another order, the names that
stand back last; the first name of a number in that order is its canonical name
(`find?_order`).
-/
import Mathlib.Data.List.Induction
import Mathlib.Data.List.Perm.Basic
import ObjectModel.Errno
import ObjectModel.Proofs.Bindings

namespace ObjectModel

-- ==================================================================== supply

namespace NativeConfiguration

/-- The configuration that was supplied key by key. -/
def supplied (inserts : List (String × Fixnum)) : NativeConfiguration :=
  inserts.foldl (fun config e => config.set e.1 e.2) .empty

theorem supplied_concat (inserts : List (String × Fixnum)) (e : String × Fixnum) :
    supplied (inserts ++ [e]) = (supplied inserts).set e.1 e.2 := by
  unfold supplied
  rw [List.foldl_append]
  rfl

/-- Every key once, in the order of first supply, with its last number. -/
structure Supplied (inserts : List (String × Fixnum)) (config : NativeConfiguration) : Prop where
  keys_eq : config.keys = (inserts.map (·.1)).eraseDups
  get?_eq : ∀ key, config.get? key = (inserts.reverse.find? (·.1 = key)).map (·.2)
  nodup : config.keys.Nodup

theorem supplied_account (inserts : List (String × Fixnum)) :
    Supplied inserts (supplied inserts) := by
  induction inserts using List.reverseRecOn with
  | nil => exact ⟨rfl, fun _ => rfl, List.nodup_nil⟩
  | append_singleton inserts e ih =>
      obtain ⟨key, number⟩ := e
      have hkeys : ((supplied inserts).set key number).keys
          = if key ∈ (supplied inserts).keys then (supplied inserts).keys
            else (supplied inserts).keys ++ [key] :=
        Bindings.map_assign (supplied inserts).entries key number
      rw [supplied_concat]
      refine ⟨?_, fun other => ?_, ?_⟩
      · have hsame : key ∈ (supplied inserts).keys ↔ key ∈ inserts.map (·.1) := by
          rw [ih.keys_eq, List.mem_eraseDups]
        rw [hkeys, List.map_append, List.eraseDups_append, ← ih.keys_eq, List.map_singleton]
        by_cases hmem : key ∈ inserts.map (·.1)
        · rw [if_pos (hsame.mpr hmem)]
          simp [List.removeAll, hmem]
        · rw [if_neg (mt hsame.mp hmem)]
          simp [List.removeAll, hmem, List.eraseDups_cons]
      · rw [List.reverse_append, List.reverse_singleton, List.singleton_append]
        by_cases hother : other = key
        · subst hother
          rw [List.find?_cons_of_pos (by simp)]
          exact Bindings.get?_set_self _ _ _
        · rw [List.find?_cons_of_neg (by simpa using Ne.symm hother), ← ih.get?_eq]
          exact Bindings.get?_set_of_ne hother _ _
      · exact Bindings.nodup_keys_set ih.nodup key number

-- =================================================================== sections

/-- What is behind a start is what it has to be followed by. -/
theorem behind?_eq_some : ∀ {start text rest : List Char},
    behind? start text = some rest ↔ text = start ++ rest := by
  intro start
  induction start with
  | nil => intro text rest; exact Option.some_inj
  | cons c start ih =>
      intro text rest
      cases text with
      | nil => exact ⟨nofun, nofun⟩
      | cons d text =>
          unfold behind?
          rw [List.cons_append, List.cons.injEq]
          by_cases hc : c = d
          · rw [if_pos hc, ih]
            exact ⟨fun h => ⟨hc.symm, h⟩, fun h => h.2⟩
          · rw [if_neg hc]
            exact ⟨nofun, fun h => absurd h.1.symm hc⟩

/-- The name of a key under a section. -/
def nameUnder? (start key : String) : Option String :=
  (behind? start.toList key.toList).map String.ofList

theorem nameUnder?_eq_some {start key name : String} :
    nameUnder? start key = some name ↔ key = start ++ name := by
  unfold nameUnder?
  constructor
  · intro h
    obtain ⟨rest, hrest, rfl⟩ := Option.map_eq_some_iff.mp h
    rw [← String.ofList_toList (s := key), behind?_eq_some.mp hrest, String.ofList_append,
      String.ofList_toList]
  · rintro rfl
    rw [behind?_eq_some.mpr String.toList_append, Option.map_some, String.ofList_toList]

theorem entriesUnder_eq (config : NativeConfiguration) (start : String) :
    config.entriesUnder start = config.entries.filterMap fun e =>
      (nameUnder? start e.1).map fun name => (name, e.2) := by
  unfold entriesUnder nameUnder?
  congr 1
  funext e
  rw [Option.map_map]
  rfl

/-- The entries of a section are its keys, in the same order, with their numbers. -/
structure SectionOf (config : NativeConfiguration) (start : String)
    (entries : List (String × Fixnum)) : Prop where
  names_eq : entries.map (·.1) = config.keys.filterMap (nameUnder? start)
  mem_iff : ∀ {name number}, (name, number) ∈ entries ↔ config.get? (start ++ name) = some number

variable {config : NativeConfiguration} (nodup : config.keys.Nodup) (start : String)

include nodup

theorem sectionOf_entriesUnder : SectionOf config start (config.entriesUnder start) where
  names_eq := by
    unfold Bindings.keys
    rw [entriesUnder_eq, List.map_filterMap, List.filterMap_map]
    congr 1
    funext e
    rw [Function.comp_apply, Option.map_map]
    exact congrFun Option.map_id _
  mem_iff {name number} := by
    rw [entriesUnder_eq, List.mem_filterMap, ← Bindings.mem_entries_iff nodup]
    constructor
    · rintro ⟨⟨key, value⟩, mem, h⟩
      obtain ⟨found, hfound, heq⟩ := Option.map_eq_some_iff.mp h
      cases heq
      rw [← nameUnder?_eq_some.mp hfound]
      exact mem
    · intro mem
      refine ⟨_, mem, ?_⟩
      dsimp only
      rw [nameUnder?_eq_some.mpr rfl]
      rfl

/-- The names under a section are distinct. -/
theorem nodup_entriesUnder : ((config.entriesUnder start).map (·.1)).Nodup := by
  rw [(sectionOf_entriesUnder nodup start).names_eq]
  refine nodup.filterMap fun key key' name h h' => ?_
  rw [nameUnder?_eq_some.mp h, nameUnder?_eq_some.mp h']

end NativeConfiguration

-- ===================================================================== order

namespace ErrnoTable

/-- The name goes after a more common one of its number. -/
def standsBack (e : String × Fixnum) : Bool := secondaryErrnoNames.contains e.1

/-- The canonical name of a number: its first name that does not stand back, or
its first name if all do. -/
def canonicalName? (entries : List (String × Fixnum)) (number : Fixnum) : Option String :=
  let named := entries.filter (·.2 = number)
  ((named.find? (!standsBack ·)).or named.head?).map (·.1)

variable (config : NativeConfiguration)

theorem order_eq : order config
    = (config.entriesUnder errnoSection).filter (!standsBack ·)
      ++ (config.entriesUnder errnoSection).filter standsBack := by
  have hparted := List.partition_eq_filter_filter (p := fun e => secondaryErrnoNames.contains e.1)
    (l := config.entriesUnder errnoSection)
  unfold order
  dsimp only
  rw [hparted]
  rfl

/-- The order of definition is another order of the same entries. -/
theorem perm_order : (order config).Perm (config.entriesUnder errnoSection) := by
  rw [order_eq]
  exact List.perm_append_comm.trans (List.filter_append_perm standsBack _)

theorem nodup_order (nodup : config.keys.Nodup) : ((order config).map (·.1)).Nodup :=
  ((perm_order config).map _).nodup_iff.mpr
    (NativeConfiguration.nodup_entriesUnder nodup errnoSection)

/-- Entries that are looked for twice may be looked for in either order. -/
theorem find?_filter_comm {α : Type} (p q : α → Bool) (l : List α) :
    (l.filter p).find? q = (l.filter q).find? p := by
  rw [List.find?_filter, List.find?_filter]
  congr 1
  funext a
  exact decide_eq_decide.mpr and_comm

/-- The first name of a number in the order of definition is its canonical
name. -/
theorem find?_order (number : Fixnum) :
    ((order config).find? (·.2 = number)).map (·.1)
      = canonicalName? (config.entriesUnder errnoSection) number := by
  unfold canonicalName?
  rw [order_eq, List.find?_append, find?_filter_comm, find?_filter_comm standsBack]
  generalize (config.entriesUnder errnoSection).filter (·.2 = number) = named
  dsimp only
  cases hfirst : named.find? (!standsBack ·) with
  | some e => rfl
  | none =>
      -- all names of the number stand back, so the first that does is the first
      cases named with
      | nil => rfl
      | cons e rest =>
          have hback := List.find?_eq_none.mp hfirst e List.mem_cons_self
          rw [List.find?_cons_of_pos (by simpa using hback)]
          rfl

example : canonicalName? [("EWOULDBLOCK", .zero), ("EAGAIN", .zero)] .zero = some "EAGAIN" := by
  decide

end ErrnoTable

end ObjectModel
