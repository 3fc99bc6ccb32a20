/-
What code does to activations, as data.

A scope is the activations of a program with the storage sites of its code. An
action makes a layout, a frame or a site, names a slot, or asks for the record
of a frame, either plainly or through a site. An action is valid if it speaks
of layouts, frames and sites that are there.

It is orderly if it also leaves the special slot's name alone: no slot is given
that name before the special slot is registered. The orderly actions are those
after which storage sites can be trusted; see `Proofs.Scope.Site`.
-/
import ObjectModel.Run
import ObjectModel.Scope.Site

namespace ObjectModel

/-- A layout as code declares it, with the special slot or without. -/
def FrameLayout.declared (name : String) (special : Bool) : FrameLayout :=
  if special then (fresh name).registerSpecial else fresh name

namespace Activations

variable (a : Activations)

def HasLayout (l : LayoutId) : Prop := l.index < a.layouts.length

def HasFrame (f : FrameId) : Prop := f.index < a.frames.length

instance (l : LayoutId) : Decidable (a.HasLayout l) := inferInstanceAs (Decidable (_ < _))

instance (f : FrameId) : Decidable (a.HasFrame f) := inferInstanceAs (Decidable (_ < _))

/-- The activations after a layout was asked for a slot. -/
def addSlot (l : LayoutId) (name : String) : Activations :=
  a.modifyLayout l fun layout => (layout.addSlot name).2

end Activations

/-- Activations, and the sites of the code that runs in them. -/
structure Scope where
  activations : Activations
  sites : List StorageSite

inductive Scope.Action where
  | addLayout (name : String) (special : Bool)
  | addFrame (layout : LayoutId) (declaration : Option FrameId)
  | addSlot (layout : LayoutId) (name : String)
  | openSite (limits : CacheLimits)
  | request (f : FrameId) (t : ThreadId)
  /-- A request through the site of this place. -/
  | requestAt (site : Nat) (f : FrameId) (t : ThreadId)

namespace Scope

def empty : Scope := ⟨.empty, []⟩

/-- The scope after an action. -/
def act (s : Scope) : Action → Scope
  | .addLayout name special =>
    { s with activations := (s.activations.addLayout (.declared name special)).2 }
  | .addFrame layout declaration =>
    { s with activations := (s.activations.addFrame layout declaration).2 }
  | .addSlot layout name => { s with activations := s.activations.addSlot layout name }
  | .openSite limits => { s with sites := s.sites ++ [.fresh limits] }
  | .request f t => { s with activations := (s.activations.storageOf f t).2 }
  | .requestAt i f t =>
    match s.sites[i]? with
    | some site =>
      let (_, site, a) := site.storageOf s.activations f t
      ⟨a, s.sites.set i site⟩
    | none => s

def run (s : Scope) (actions : List Action) : Scope := actions.foldl act s

namespace Action

/-- The action is about layouts, frames and sites of the scope. -/
def Valid (s : Scope) : Action → Prop
  | .addLayout _ _ | .openSite _ => True
  | .addFrame layout declaration =>
    s.activations.HasLayout layout ∧ ∀ f ∈ declaration, s.activations.HasFrame f
  | .addSlot layout _ => s.activations.HasLayout layout
  | .request f _ => s.activations.HasFrame f
  | .requestAt i f _ => i < s.sites.length ∧ s.activations.HasFrame f

/-- The action gives no slot the special slot's name while the special slot is
not registered. -/
def SparesSpecial (s : Scope) : Action → Prop
  | .addSlot layout name =>
    name = specialSlotName → (s.activations.layout layout).hasSpecial = true
  | _ => True

def Orderly (s : Scope) (x : Action) : Prop := x.Valid s ∧ x.SparesSpecial s

instance (s : Scope) (x : Action) : Decidable (x.Valid s) :=
  match x with
  | .addLayout _ _ | .openSite _ => .isTrue trivial
  | .addFrame _ _ | .requestAt _ _ _ => inferInstanceAs (Decidable (_ ∧ _))
  | .addSlot layout _ => inferInstanceAs (Decidable (s.activations.HasLayout layout))
  | .request f _ => inferInstanceAs (Decidable (s.activations.HasFrame f))

instance (s : Scope) (x : Action) : Decidable (x.SparesSpecial s) :=
  match x with
  | .addSlot _ name => inferInstanceAs (Decidable (name = specialSlotName → _))
  | .addLayout _ _ | .addFrame _ _ | .openSite _ | .request _ _ | .requestAt _ _ _ =>
    .isTrue trivial

instance (s : Scope) (x : Action) : Decidable (x.Orderly s) :=
  inferInstanceAs (Decidable (_ ∧ _))

end Action

/-- Every action is allowed in the scope that it finds. -/
abbrev Along (allowed : Scope → Action → Prop) : Scope → List Action → Prop :=
  ObjectModel.Along act allowed

end Scope

end ObjectModel
