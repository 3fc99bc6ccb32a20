/-
Activations and their special variables.

A frame is one activation of a piece of code; its layout is shared by all
activations of that code, and a block's frame is declared inside another
frame. The last match and the last line live in a record that a method body
and its blocks share: it sits in the nearest frame, outwards, whose layout has
the special slot, or else in the outermost frame, whose layout gets the slot
then. A change of a layout moves its version.

The record keeps a value per thread for each of the two variables.
-/
import ObjectModel.Value

namespace ObjectModel

structure LayoutId where
  index : Nat
deriving DecidableEq, Inhabited

structure FrameId where
  index : Nat
deriving DecidableEq, Inhabited

structure RecordId where
  index : Nat
deriving DecidableEq, Inhabited

/-- A thread, told apart from others by its number. -/
structure ThreadId where
  number : Int
deriving DecidableEq, Inhabited

-- =============================================================== threads

/-- A variable of which every thread has its own copy; the copy of the thread
that made it is kept apart. -/
structure ThreadLocal where
  owner : ThreadId
  own : Value
  others : List (ThreadId × Value)
deriving Inhabited

namespace ThreadLocal

def fresh (owner : ThreadId) : ThreadLocal := ⟨owner, .nil, []⟩

/-- The thread's copy, nil if it has none. -/
def read (x : ThreadLocal) (t : ThreadId) : Value :=
  if t = x.owner then x.own else (x.others.lookup t).getD .nil

def write (x : ThreadLocal) (t : ThreadId) (v : Value) : ThreadLocal :=
  if t = x.owner then { x with own := v }
  else { x with others := (t, v) :: x.others.filter (·.1 ≠ t) }

end ThreadLocal

/-- The two special variables. -/
inductive SpecialVariable where
  | lastMatch
  | lastLine
deriving DecidableEq

/-- A record of the special variables. -/
structure SpecialRecord where
  lastMatch : ThreadLocal
  lastLine : ThreadLocal
deriving Inhabited

namespace SpecialRecord

/-- A record made by a thread. -/
def fresh (owner : ThreadId) : SpecialRecord := ⟨.fresh owner, .fresh owner⟩

def read (s : SpecialRecord) (x : SpecialVariable) (t : ThreadId) : Value :=
  match x with
  | .lastMatch => s.lastMatch.read t
  | .lastLine => s.lastLine.read t

def write (s : SpecialRecord) (x : SpecialVariable) (t : ThreadId) (v : Value) : SpecialRecord :=
  match x with
  | .lastMatch => { s with lastMatch := s.lastMatch.write t v }
  | .lastLine => { s with lastLine := s.lastLine.write t v }

end SpecialRecord

-- =============================================================== layouts

/-- The name of the slot that holds a record. -/
def specialSlotName : String := "$~_"

structure FrameLayout where
  name : String
  slots : List String
  /-- The place of the special slot, once it is registered. -/
  special : Option Nat
  version : Nat
deriving Inhabited, DecidableEq

namespace FrameLayout

def fresh (name : String) : FrameLayout := ⟨name, [], none, 0⟩

def findSlot? (l : FrameLayout) (name : String) : Option Nat :=
  l.slots.findIdx? (· == name)

/-- The place of a slot, added at the end if there is none of that name. -/
def addSlot (l : FrameLayout) (name : String) : Nat × FrameLayout :=
  match l.findSlot? name with
  | some index => (index, l)
  | none =>
    (l.slots.length, { l with slots := l.slots ++ [name], version := l.version + 1 })

def hasSpecial (l : FrameLayout) : Bool := l.special.isSome

/-- The layout with the special slot registered. -/
def registerSpecial (l : FrameLayout) : FrameLayout :=
  match l.special with
  | some _ => l
  | none =>
    let (slot, l) := l.addSlot specialSlotName
    { l with special := some slot }

end FrameLayout

-- ================================================================ frames

/-- One activation. -/
structure Frame where
  layout : LayoutId
  /-- The activation around a block. -/
  declaration : Option FrameId
  storage : Option RecordId
deriving Inhabited, DecidableEq

/-- All layouts, frames and records, oldest first. -/
structure Activations where
  layouts : List FrameLayout
  frames : List Frame
  records : List SpecialRecord
deriving Inhabited

namespace Activations

variable (a : Activations)

def empty : Activations := ⟨[], [], []⟩

def layout (l : LayoutId) : FrameLayout := a.layouts.getD l.index default

def frame (f : FrameId) : Frame := a.frames.getD f.index default

def record (s : RecordId) : SpecialRecord := a.records.getD s.index default

def frameLayout (f : FrameId) : FrameLayout := a.layout (a.frame f).layout

def addLayout (l : FrameLayout) : LayoutId × Activations :=
  (⟨a.layouts.length⟩, { a with layouts := a.layouts ++ [l] })

def addFrame (layout : LayoutId) (declaration : Option FrameId) : FrameId × Activations :=
  (⟨a.frames.length⟩, { a with frames := a.frames ++ [⟨layout, declaration, none⟩] })

def modifyLayout (l : LayoutId) (change : FrameLayout → FrameLayout) : Activations :=
  { a with layouts := a.layouts.modify l.index change }

def modifyRecord (s : RecordId) (change : SpecialRecord → SpecialRecord) : Activations :=
  { a with records := a.records.modify s.index change }

/-- How many frames are around a frame, at most `fuel`. -/
def depthWithin : Nat → FrameId → Nat
  | 0, _ => 0
  | fuel + 1, f =>
    match (a.frame f).declaration with
    | some next => depthWithin fuel next + 1
    | none => 0

/-- How many frames are around a frame. A frame is declared inside an older
one, so there are fewer than frames. -/
def depth (f : FrameId) : Nat := a.depthWithin a.frames.length f

-- =============================================================== storage

/-- The frame's record, made now by the thread if there is none. -/
def materialize (f : FrameId) (t : ThreadId) : RecordId × Activations :=
  match (a.frame f).storage with
  | some s => (s, a)
  | none =>
    let s : RecordId := ⟨a.records.length⟩
    (s, { a with
      records := a.records ++ [.fresh t]
      frames := a.frames.modify f.index fun frame => { frame with storage := some s } })

/-- The steps of a walk: the layouts passed, with their versions. -/
abbrev Path := List (LayoutId × Nat)

/-- Walks outwards to the frame that owns the record, through at most `fuel`
frames, and registers the slot at the outermost frame if no layout has it. -/
def walk : Nat → Activations → FrameId → FrameId × Path × Activations
  | 0, a, f => (f, [], a)
  | fuel + 1, a, f =>
    let frame := a.frame f
    let here (a : Activations) := (frame.layout, (a.layout frame.layout).version)
    match (a.layout frame.layout).hasSpecial, frame.declaration with
    | true, _ => (f, [here a], a)
    | false, none =>
      let a := a.modifyLayout frame.layout FrameLayout.registerSpecial
      (f, [here a], a)
    | false, some next =>
      let (owner, path, a') := walk fuel a next
      (owner, here a :: path, a')

/-- The record of a frame, with the path walked to it. -/
def locate (f : FrameId) (t : ThreadId) : RecordId × Path × Activations :=
  let (owner, path, a) := walk (a.frames.length + 1) a f
  let (s, a) := a.materialize owner t
  (s, path, a)

/-- The record that holds a frame's special variables. -/
def storageOf (f : FrameId) (t : ThreadId) : RecordId × Activations :=
  let (s, _, a) := a.locate f t
  (s, a)

end Activations

end ObjectModel
