/-
Where a type looks for methods and constants.

The ancestors of a type are the type, then the modules mixed into it, each
followed by the modules mixed into that module, then the same for its
superclass, and so on; a type that is on the list already is passed over,
with all that it mixes in. Methods and constants are found in the first
ancestor that has them.

The walks are bounded by the number of types, which no chain of superclasses
and no nest of modules exceeds in a registry without cycles.
-/
import ObjectModel.Registry.Basic

namespace ObjectModel.Registry

variable (r : Registry)

-- ========================================================= linearization

/-- A module and what it mixes in, added to a list of types. -/
def moduleWalk : Nat → TypeId → List TypeId → List TypeId
  | 0, _, seen => seen
  | fuel + 1, m, seen =>
    if m ∈ seen then seen
    else
      (r.record m).includes.foldl (fun seen inner => moduleWalk fuel inner seen)
        (seen ++ [m])

/-- A chain of superclasses and what they mix in, added to a list of types. -/
def chainWalk : Nat → Option TypeId → List TypeId → List TypeId
  | 0, _, seen => seen
  | _, none, seen => seen
  | fuel + 1, some t, seen =>
    let seen := if t ∈ seen then seen else seen ++ [t]
    let seen := (r.record t).includes.foldl
      (fun seen m => r.moduleWalk r.size m seen) seen
    chainWalk fuel (r.record t).superclass seen

/-- The types that `t` looks through, in order. -/
def ancestors (t : TypeId) : List TypeId := r.chainWalk r.size (some t) []

def isAncestor (t ancestor : TypeId) : Bool := ancestor ∈ r.ancestors t

/-- Whether a module mixes in another, directly or through others. -/
def mixesIn : Nat → TypeId → TypeId → Bool
  | 0, _, _ => false
  | fuel + 1, m, target =>
    (r.record m).includes.any fun inner => inner = target || mixesIn fuel inner target

-- ================================================================ lookup

/-- The method that a name finds from a type on. -/
def findMethod? (t : TypeId) (name : String) : Option Method :=
  (r.ancestors t).findSome? fun a => (r.record a).methods.get? name

/-- A constant of the type's own table. -/
def constant? (owner : TypeId) (name : String) : Option Value :=
  (r.record owner).constants.get? name

/-- The types whose constants a type sees: its ancestors, then those of
`Object`. -/
def constantScope (t : TypeId) : List TypeId :=
  let own := r.ancestors t
  if Core.object ∈ own then own else own ++ r.ancestors Core.object

/-- The constant that a name finds from a type on. -/
def findConstant? (t : TypeId) (name : String) : Option Value :=
  (r.constantScope t).findSome? fun a => r.constant? a name

-- ================================================================= paths

/-- The pieces of a text between double colons. -/
def splitColons : List Char → List (List Char)
  | [] => [[]]
  | ':' :: ':' :: rest => [] :: splitColons rest
  | c :: rest =>
    match splitColons rest with
    | [] => [[c]]
    | piece :: pieces => (c :: piece) :: pieces

/-- The names in a path; empty pieces do not count. -/
def pathSegments (path : String) : List String :=
  ((splitColons path.toList).filter (!·.isEmpty)).map String.ofList

/-- Follows names from a value on; each value on the way has to be a type. -/
def follow? : Value → List String → Option Value
  | value, [] => some value
  | value, name :: rest =>
    match r.typeOf? value with
    | none => none
    | some owner => (r.findConstant? owner name).bind (follow? · rest)

/-- The constant that a path such as `A::B` names, seen from `Object`. -/
def resolve? (path : String) : Option Value :=
  match pathSegments path with
  | [] => none
  | first :: rest => (r.findConstant? Core.object first).bind (r.follow? · rest)

end ObjectModel.Registry
