/-
Names bound to things.

A table in which every name is bound at most once. Binding a name again keeps
its place and replaces what it stands for; a new name goes to the end, so the
entries are in the order of first binding.
-/

namespace ObjectModel

universe u

/-- A finite table from names to things. -/
structure Bindings (α : Type u) where
  entries : List (String × α)

namespace Bindings

variable {α : Type u}

def empty : Bindings α := ⟨[]⟩

instance : Inhabited (Bindings α) := ⟨empty⟩

/-- What the first entry for a name holds. -/
def lookup : List (String × α) → String → Option α
  | [], _ => none
  | (key, value) :: rest, name => if key = name then some value else lookup rest name

/-- Entries with a name bound. -/
def assign : List (String × α) → String → α → List (String × α)
  | [], name, value => [(name, value)]
  | (key, old) :: rest, name, value =>
    if key = name then (key, value) :: rest else (key, old) :: assign rest name value

def get? (b : Bindings α) (name : String) : Option α := lookup b.entries name

def set (b : Bindings α) (name : String) (value : α) : Bindings α :=
  ⟨assign b.entries name value⟩

def contains (b : Bindings α) (name : String) : Bool := (b.get? name).isSome

def size (b : Bindings α) : Nat := b.entries.length

/-- The bound names, in the order of their code points. -/
def names (b : Bindings α) : List String :=
  (b.entries.map (·.1)).mergeSort fun x y => x ≤ y

@[simp] theorem get?_empty (name : String) : (empty : Bindings α).get? name = none := rfl

theorem lookup_assign_self (entries : List (String × α)) (name : String) (value : α) :
    lookup (assign entries name value) name = some value := by
  induction entries with
  | nil => simp [assign, lookup]
  | cons entry rest ih =>
    obtain ⟨key, old⟩ := entry
    by_cases h : key = name <;> simp [assign, lookup, h, ih]

theorem lookup_assign_of_ne {name other : String} (ne : other ≠ name)
    (entries : List (String × α)) (value : α) :
    lookup (assign entries name value) other = lookup entries other := by
  induction entries with
  | nil => simp [assign, lookup, ne.symm]
  | cons entry rest ih =>
    obtain ⟨key, old⟩ := entry
    by_cases h : key = name
    · subst h
      simp [assign, lookup, ne.symm]
    · by_cases h' : key = other <;> simp [assign, lookup, h, h', ih, ne]

@[simp] theorem get?_set_self (b : Bindings α) (name : String) (value : α) :
    (b.set name value).get? name = some value :=
  lookup_assign_self b.entries name value

theorem get?_set_of_ne {name other : String} (ne : other ≠ name)
    (b : Bindings α) (value : α) : (b.set name value).get? other = b.get? other :=
  lookup_assign_of_ne ne b.entries value

end Bindings

end ObjectModel
