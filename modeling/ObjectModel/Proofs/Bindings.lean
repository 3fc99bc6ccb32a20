/-
Bindings, entry by entry.

Binding a name keeps the order of first binding, so the bound names stay
distinct; and where they are, a name finds exactly the value that it is entered
with.
-/
import Mathlib.Data.List.Nodup
import ObjectModel.Bindings

namespace ObjectModel.Bindings

universe u

variable {α : Type u}

/-- The bound names, in the order of first binding. -/
def keys (b : Bindings α) : List String := b.entries.map (·.1)

/-- Binding a name adds it to the end, unless it is there. -/
theorem map_assign (entries : List (String × α)) (name : String) (value : α) :
    (assign entries name value).map (·.1)
      = if name ∈ entries.map (·.1) then entries.map (·.1) else entries.map (·.1) ++ [name] := by
  induction entries with
  | nil => rfl
  | cons entry rest ih =>
      obtain ⟨key, old⟩ := entry
      unfold assign
      by_cases hkey : key = name
      · subst hkey
        rw [if_pos rfl, List.map_cons, List.map_cons, if_pos List.mem_cons_self]
      · rw [if_neg hkey, List.map_cons, List.map_cons, ih]
        by_cases hrest : name ∈ rest.map (·.1)
        · rw [if_pos hrest, if_pos (List.mem_cons_of_mem _ hrest)]
        · rw [if_neg hrest, if_neg (List.not_mem_cons_of_ne_of_not_mem (Ne.symm hkey) hrest)]
          rfl

/-- Bound names stay distinct. -/
theorem nodup_keys_set {b : Bindings α} (nodup : b.keys.Nodup) (name : String) (value : α) :
    (b.set name value).keys.Nodup := by
  unfold keys set
  rw [map_assign]
  split
  · exact nodup
  · next fresh =>
    refine List.nodup_append.mpr ⟨nodup, List.nodup_singleton name, ?_⟩
    intro other mem _ hname
    rw [List.mem_singleton.mp hname]
    rintro rfl
    exact fresh mem

/-- A name that is bound once is bound to the value of its entry. -/
theorem lookup_of_mem : ∀ {entries : List (String × α)} {name : String} {value : α},
    (entries.map (·.1)).Nodup → (name, value) ∈ entries → lookup entries name = some value := by
  intro entries
  induction entries with
  | nil => intro name value _ mem; cases mem
  | cons entry rest ih =>
      intro name value nodup mem
      obtain ⟨key, old⟩ := entry
      rw [List.map_cons, List.nodup_cons] at nodup
      unfold lookup
      rcases List.mem_cons.mp mem with heq | hrest
      · cases heq
        exact if_pos rfl
      · have hne : key ≠ name := by
          rintro rfl
          exact nodup.1 (List.mem_map_of_mem (f := (·.1)) hrest)
        rw [if_neg hne]
        exact ih nodup.2 hrest

/-- What a name finds in bindings is one of their entries. -/
theorem mem_of_get? {b : Bindings α} {name : String} {value : α}
    (h : b.get? name = some value) : (name, value) ∈ b.entries := by
  obtain ⟨entries⟩ := b
  unfold get? at h
  dsimp only at h ⊢
  induction entries with
  | nil => cases h
  | cons entry rest ih =>
      obtain ⟨key, old⟩ := entry
      unfold lookup at h
      split at h
      · next heq =>
        cases h
        rw [heq]
        exact List.mem_cons_self
      · exact List.mem_cons_of_mem _ (ih h)

/-- Where names are bound once, entries are what names find. -/
theorem mem_entries_iff {b : Bindings α} (nodup : b.keys.Nodup) {name : String} {value : α} :
    (name, value) ∈ b.entries ↔ b.get? name = some value :=
  ⟨lookup_of_mem nodup, mem_of_get?⟩

end ObjectModel.Bindings
