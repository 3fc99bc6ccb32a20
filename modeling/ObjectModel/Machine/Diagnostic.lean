/-
Values as a maintainer sees them.

The text tells the representation: numbers in their diagnostic form, symbols
by their places, and heap objects with their whole header.
-/
import ObjectModel.Machine.Basic

namespace ObjectModel.Machine

/-- A type by its place. -/
def typeTag (t : TypeId) : String := "TypeId(" ++ toString t.index ++ ")"

def payloadText : Payload → String
  | .plain => "Plain"
  | .text s => "Str(" ++ Text.Quoted.quote s ++ ")"
  | .type t => "Type(" ++ typeTag t ++ ")"

/-- A heap object with its header. -/
def objectText (o : HeapObject) : String :=
  let singleton :=
    match o.singleton with
    | some t => "Some(" ++ typeTag t ++ ")"
    | none => "None"
  "RObject \x7b logical_type: " ++ typeTag o.logicalType ++ ", singleton: " ++ singleton ++
    ", shape: " ++ Text.Quoted.quote o.shape.name ++ ", data: " ++ payloadText o.payload ++
    " \x7d"

/-- A value's representation. -/
def diagnose (m : Machine) : Value → String
  | .nil => "nil"
  | .bool b => if b then "true" else "false"
  | .fixnum n => toString n.val
  | .bignum b => b.toText
  | .float x => x.diagnostic
  | .symbol s => "Symbol(" ++ toString s.index ++ ")"
  | .object o => objectText (m.registry.cell o)
  | .foreign f => "Foreign(" ++ toString f.index ++ ")"

end ObjectModel.Machine
