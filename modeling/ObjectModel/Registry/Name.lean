/-
How types are named in messages.

A type that was bound to a constant has that name. A singleton type is named
after the object it is attached to, a type or an instance of one; any other
type is named by its place.
-/
import ObjectModel.Registry.Basic

namespace ObjectModel.Registry

variable (r : Registry)

/-- A number in hexadecimal with at least four digits. -/
def fourHexDigits (n : Nat) : String :=
  let digits := Nat.toDigits 16 n
  String.ofList (List.replicate (4 - digits.length) '0' ++ digits)

/-- The name of a type that has nothing but its place. -/
def placeName (t : TypeId) : String :=
  match (r.record t).kind with
  | .classType => "#<Class:0x" ++ fourHexDigits t.index ++ ">"
  | .moduleType => "#<Module:0x" ++ fourHexDigits t.index ++ ">"

/-- The name of a type, through at most `fuel` attached objects. -/
def displayWithin : Nat → TypeId → String
  | 0, t => r.placeName t
  | fuel + 1, t =>
    match (r.record t).name with
    | some name => name
    | none =>
      match (r.record t).attached with
      | none => r.placeName t
      | some o =>
        match r.denotes? o with
        | some inner => "#<Class:" ++ displayWithin fuel inner ++ ">"
        | none => "#<Class:#<" ++ displayWithin fuel (r.cell o).logicalType ++ ">>"

/-- The name of a type in messages. What a singleton type is attached to is
always older than the type, so its place bounds the way down. -/
def displayName (t : TypeId) : String := r.displayWithin (t.index + 1) t

end ObjectModel.Registry
