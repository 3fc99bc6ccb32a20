/-
Bounded lists of guarded entries.

A call site remembers what it learned in a chain: entries are probed in the
order of installation and the first hit wins. A chain that would have to hold
more entries than its limit gives up for good: it is emptied, finds nothing
and takes nothing any more. Such a chain is called megamorphic.
-/

namespace ObjectModel

universe u v

/-- What became of an entry offered to a chain. -/
inductive Install where
  | added
  | present
  | megamorphic
deriving DecidableEq

def Install.name : Install → String
  | .added => "Added"
  | .present => "Present"
  | .megamorphic => "Megamorphic"

/-- The entries of one site, oldest first. -/
structure GuardChain (ε : Type u) where
  limit : Nat
  entries : List ε
  megamorphic : Bool

namespace GuardChain

variable {ε : Type u} {ρ : Type v}

/-- A chain that has seen nothing. -/
def empty (limit : Nat) : GuardChain ε := ⟨limit, [], false⟩

/-- The first hit. -/
def findMap? (chain : GuardChain ε) (probe : ε → Option ρ) : Option ρ :=
  if chain.megamorphic then none else chain.entries.findSome? probe

/-- Adds an entry, unless one that is the `same` is there already. -/
def install (chain : GuardChain ε) (same : ε → ε → Bool) (entry : ε) :
    Install × GuardChain ε :=
  if chain.megamorphic then (.megamorphic, chain)
  else if chain.entries.any (same · entry) then (.present, chain)
  else if chain.limit ≤ chain.entries.length then
    (.megamorphic, { chain with entries := [], megamorphic := true })
  else (.added, { chain with entries := chain.entries ++ [entry] })

/-- Drops the entries that fail `keep`. -/
def retain (chain : GuardChain ε) (keep : ε → Bool) : GuardChain ε :=
  { chain with entries := chain.entries.filter keep }

/-- Replaces entries where they stand. -/
def revise (chain : GuardChain ε) (change : ε → ε) : GuardChain ε :=
  { chain with entries := chain.entries.map change }

def size (chain : GuardChain ε) : Nat := chain.entries.length

end GuardChain

end ObjectModel
