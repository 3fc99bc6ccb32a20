/-
Operations on a table of globals, as data.

An operation is a call on the table. The state that hooks run in belongs to the
host, which may change it between two calls, so that is an operation, too. A
call that raises may have changed the table before; one that does not come back
is no part of a run, and counts as if it had not been made.

Names and storages are not the same thing. All calls but one leave the names
that are bound where they lead; an alias may rebind its new name. A hook that
runs in a call may alias names itself.
-/
import ObjectModel.Globals

namespace ObjectModel

inductive GlobalOperation (σ : Type) where
  | call {a : Answer} (c : GlobalCall σ a)
  | host (change : σ → σ)

namespace GlobalOperation

variable {σ : Type}

/-- The table after an operation. -/
def act (t : GlobalTable σ) : GlobalOperation σ → GlobalTable σ
  | .call c =>
    match t.call c with
    | some (_, t') => t'
    | none => t
  | .host change => { t with host := change t.host }

/-- The operation is an alias that gives a name to another storage than the one
it leads to. -/
def Rebinds (t : GlobalTable σ) (name : String) : GlobalOperation σ → Prop
  | .call (.addAlias newName oldName) =>
    newName = name ∧ t.names.get? oldName ≠ t.names.get? name
  | _ => False

/-- A name that leads to a storage leads elsewhere after the operation, whoever made
the alias. -/
def Moves (t : GlobalTable σ) (name : String) (op : GlobalOperation σ) : Prop :=
  ∃ id, t.names.get? name = some id ∧ (op.act t).names.get? name ≠ some id

end GlobalOperation

end ObjectModel
