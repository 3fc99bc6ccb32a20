/-
Instance layouts.

A shape is an immutable list of field names under a name of its own. A table
hands out one shape per name: the first definition counts, later ones answer
the same shape, whatever fields they ask for. Shapes are numbered in the order
of definition by a counter of 32 bits that the table keeps beside them.
-/
import ObjectModel.Bindings

namespace ObjectModel

/-- The number of a shape in its table. -/
structure ShapeId where
  index : Nat
deriving DecidableEq, Inhabited

/-- A layout: its fields in order. -/
structure Shape where
  id : ShapeId
  name : String
  fields : List String
deriving DecidableEq, Inhabited

/-- The place of a field, the first one if a name occurs twice. -/
def Shape.fieldIndex? (s : Shape) (field : String) : Option Nat :=
  s.fields.findIdx? (· == field)

/-- Whether two shapes of one table are the same object. -/
def Shape.same (a b : Shape) : Bool := a.id == b.id

/-- The shapes defined so far, by name, and the number of the next one. -/
structure ShapeTable where
  nextId : Nat
  shapes : Bindings Shape
deriving Inhabited

namespace ShapeTable

def empty : ShapeTable := ⟨0, .empty⟩

def get? (t : ShapeTable) (name : String) : Option Shape := t.shapes.get? name

/-- The shape of that name, defined now with `fields` if there is none. -/
def define (t : ShapeTable) (name : String) (fields : List String) : Shape × ShapeTable :=
  match t.get? name with
  | some shape => (shape, t)
  | none =>
    let shape : Shape := ⟨⟨t.nextId⟩, name, fields⟩
    (shape, ⟨(t.nextId + 1) % 4294967296, t.shapes.set name shape⟩)

def size (t : ShapeTable) : Nat := t.shapes.size

end ShapeTable

end ObjectModel
