/-
What threads do with records, as data.

A thread reads or writes a special variable of a record, one access at a time
and in any order with those of other threads. In between code goes on: frames
are made, and whichever thread asks first for the record of a frame makes it.
So a step is an action of code or an access, and an access is valid if its
record is there.
-/
import ObjectModel.Scope.Action

namespace ObjectModel

namespace Activations

variable (a : Activations)

def HasRecord (r : RecordId) : Prop := r.index < a.records.length

instance (r : RecordId) : Decidable (a.HasRecord r) := inferInstanceAs (Decidable (_ < _))

end Activations

namespace Scope

inductive Step where
  | act (x : Action)
  | read (t : ThreadId) (r : RecordId) (x : SpecialVariable)
  | write (t : ThreadId) (r : RecordId) (x : SpecialVariable) (v : Value)

namespace Step

/-- The scope after a step. -/
def perform (s : Scope) : Step → Scope
  | .act x => s.act x
  | .read _ _ _ => s
  | .write t r x v =>
    { s with activations := s.activations.modifyRecord r fun record => record.write x t v }

def Valid (s : Scope) : Step → Prop
  | .act x => x.Valid s
  | .read _ r _ | .write _ r _ _ => s.activations.HasRecord r

instance (s : Scope) (step : Step) : Decidable (step.Valid s) :=
  match step with
  | .act x => inferInstanceAs (Decidable (x.Valid s))
  | .read _ r _ | .write _ r _ _ => inferInstanceAs (Decidable (s.activations.HasRecord r))

/-- The step is an access of another thread. -/
def byOther (t : ThreadId) : Step → Bool
  | .act _ => false
  | .read u _ _ | .write u _ _ _ => u ≠ t

/-- What a thread gets to read in a step, if it reads. -/
def reading? (t : ThreadId) (s : Scope) : Step → Option Value
  | .read u r x => if u = t then some ((s.activations.record r).read x t) else none
  | .act _ | .write _ _ _ _ => none

/-- What a thread writes to a variable of a record in a step, if it does. -/
def written? (t : ThreadId) (r : RecordId) (x : SpecialVariable) : Step → Option Value
  | .write u q y v => if u = t ∧ q = r ∧ y = x then some v else none
  | .act _ | .read _ _ _ => none

end Step

/-- The scope after some steps. -/
def performAll (s : Scope) (steps : List Step) : Scope := steps.foldl Step.perform s

/-- All that a thread gets to read in some steps, in order. -/
def readings (t : ThreadId) : Scope → List Step → List Value
  | _, [] => []
  | s, step :: steps => (step.reading? t s).toList ++ readings t (step.perform s) steps

/-- The last value that a thread wrote to a variable of a record. -/
def lastWritten (t : ThreadId) (r : RecordId) (x : SpecialVariable) (steps : List Step) :
    Option Value :=
  (steps.filterMap (Step.written? t r x)).getLast?

end Scope

end ObjectModel
