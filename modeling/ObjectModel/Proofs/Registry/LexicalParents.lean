/-
Where following lexical parents leads.

A type that is made under a name lies in an older one, but a type that gets its
name later may lie in any type, those that lie in it included: then the lexical
parents lead round. That is the only way to close a circle but for `Object`,
which lies in itself from the start (`Operation.NestsInItself`).

An operation gives a lexical parent to one type at most, and to one that has
none (`settles_or_nests`). So what once led round goes on doing so, and without
such an operation every way outwards ends: at `Object`, or at a type that is yet
to be named (`wellNested_iff_of_run`).
-/
import ObjectModel.Proofs.Registry.QualifiedNames

namespace ObjectModel

namespace Registry

/-- One type is the lexical parent of another. -/
def LiesIn (r : Registry) (t p : TypeId) : Prop := (r.record t).lexicalParent = some p

/-- Following lexical parents ends at `Object` or at a type that has none, and
`Object`, which lies in itself, is the only type that it comes back to. -/
structure WellNested (r : Registry) : Prop where
  ends : ∀ t : TypeId, ∃ top, Relation.ReflTransGen r.LiesIn t top
    ∧ (top = Core.object ∨ (r.record top).lexicalParent = none)
  root : r.LiesIn Core.object Core.object
  circle : ∀ {t : TypeId}, Relation.TransGen r.LiesIn t t → t = Core.object

end Registry

/-- The operation gives its name to a type without one, by a constant of that
type or of one that lies in it. -/
def Operation.NestsInItself (r : Registry) : Operation → Prop
  | .setConstant owner _ value => ∃ t, r.typeOf? value = some t ∧ (r.record t).name = none
    ∧ (r.record t).attached = none ∧ Relation.ReflTransGen r.LiesIn owner t
  | _ => False

namespace Registry

variable {r r' : Registry} {t p : TypeId} {name : String} {ops : List Operation}

-- ================================================================ one operation

/-- All types have the names and the lexical parents that they had. -/
def SamePlaces (r r' : Registry) : Prop :=
  ∀ u, (r'.record u).name = (r.record u).name
    ∧ (r'.record u).lexicalParent = (r.record u).lexicalParent

/-- One type without a name got one, and a lexical parent. -/
structure Nests (r r' : Registry) (t p : TypeId) : Prop where
  nameless : (r.record t).name = none
  named : (r'.record t).name ≠ none
  parent : r'.LiesIn t p
  others : ∀ {u : TypeId}, u ≠ t → (r'.record u).name = (r.record u).name
    ∧ (r'.record u).lexicalParent = (r.record u).lexicalParent

theorem SameNames.samePlaces (same : SameNames r r') : SamePlaces r r' :=
  fun u => ⟨same.name_eq u, same.lexicalParent_eq u⟩

/-- Edits that concern no name may come first. -/
theorem Nests.after_same {r₁ : Registry} (same : SameNames r r₁) (nests : Nests r₁ r' t p) :
    Nests r r' t p where
  nameless := (same.name_eq t).symm.trans nests.nameless
  named := nests.named
  parent := nests.parent
  others ne := by
    rw [← same.name_eq, ← same.lexicalParent_eq]
    exact nests.others ne

theorem samePlaces_bind (r : Registry) (owner : TypeId) (name : String) (v : Value) :
    SamePlaces r (r.bind owner name v) :=
  fun u => ⟨name_bind r owner name v u, lexicalParent_bind r owner name v u⟩

theorem nests_adopt (has : r.Has t) (nameless : (r.record t).name = none) (p : TypeId)
    (name : String) : Nests r (r.adopt t p name) t p where
  nameless := nameless
  named := by
    rw [adopt_eq, name_bind, record_giveName_self has nameless]
    exact Option.some_ne_none _
  parent := by
    unfold LiesIn
    rw [adopt_eq, lexicalParent_bind, record_giveName_self has nameless]
  others ne := by
    rw [adopt_eq, name_bind, lexicalParent_bind, record_giveName_of_ne ne]
    exact ⟨rfl, rfl⟩

/-- A type that is made under a name lies in the type that has the name. -/
theorem nests_allocType_adopt (r : Registry) (kind : TypeKind) (logicalType : TypeId)
    (superclass : Option TypeId) (shape : Shape) (p : TypeId) (name : String) :
    Nests r ((r.allocType kind logicalType superclass shape).2.adopt ⟨r.size⟩ p name)
      ⟨r.size⟩ p := by
  refine .after_same (.allocType r kind logicalType superclass shape) (nests_adopt ?_ ?_ p name)
  · exact (has_allocType r).mpr (.inr rfl)
  · rw [record_allocType_new]

/-- A constant that binds a type without a name gives it its place. -/
theorem nests_setConstant (wf : r.WellFormed) {value : Value} (stands : r.typeOf? value = some t)
    (nameless : (r.record t).name = none) (unattached : (r.record t).attached = none)
    (owner : TypeId) (name : String) : Nests r (r.setConstant owner name value) t owner := by
  unfold setConstant
  rw [stands]
  dsimp only
  rw [nameless, unattached]
  exact nests_adopt (wf.has_of_typeOf? stands) nameless owner name

/-- What an operation does to the places of types: nothing, or it gives a place
to a type that it makes, or to one that was there without a name. -/
inductive Settles (r : Registry) (op : Operation) (r' : Registry) : Prop
  | kept (same : SamePlaces r r')
  | made {t p : TypeId} (nests : Nests r r' t p) (has : r.Has p) (fresh : ¬ r.Has t)
  | found {t p : TypeId} (nests : Nests r r' t p) (has : r.Has p)
    (guard : Relation.ReflTransGen r.LiesIn p t → op.NestsInItself r)

theorem Settles.refl (r : Registry) (op : Operation) : Settles r op r := .kept fun _ => ⟨rfl, rfl⟩

theorem Settles.setConstant (wf : r.WellFormed) {owner : TypeId} (has : r.Has owner)
    (name : String) (value : Value) :
    Settles r (.setConstant owner name value) (r.setConstant owner name value) := by
  cases stands : r.typeOf? value with
  | none =>
      unfold Registry.setConstant
      rw [stands]
      exact .kept (samePlaces_bind r owner name value)
  | some t =>
      by_cases fresh : (r.record t).name = none ∧ (r.record t).attached = none
      · exact .found (nests_setConstant wf stands fresh.1 fresh.2 owner name) has
          fun leads => ⟨t, stands, fresh.1, fresh.2, leads⟩
      · unfold Registry.setConstant
        rw [stands]
        dsimp only
        rw [if_neg]
        · exact .kept (samePlaces_bind r owner name value)
        · rw [Bool.and_eq_true, Option.isNone_iff_eq_none, Option.isNone_iff_eq_none]
          exact fresh

theorem Settles.apply (wf : r.WellFormed) {op : Operation} (valid : op.Valid r) :
    Settles r op (op.apply r) := by
  cases op with
  | defineClass parent superclass name shape =>
      refine (looks_defineClassUnder ..).keeps (P := Settles r _) (.refl r _) fun h => ?_
      rcases defineClassUnder_inv h with ⟨rfl, -⟩ | ⟨s, made, -, -, hmade, rfl⟩
      · exact .refl _ _
      · obtain ⟨-, halloc⟩ := defineAnonymousClass_inv hmade
        cases halloc
        exact .made (nests_allocType_adopt ..) valid.1 (Nat.lt_irrefl _)
  | defineAnonymousClass superclass shape =>
      refine (looks_defineAnonymousClass ..).keeps (P := Settles r _) (.refl r _) fun h => ?_
      obtain ⟨-, halloc⟩ := defineAnonymousClass_inv h
      cases halloc
      exact .kept (SameNames.allocType r _ _ _ _).samePlaces
  | defineModule parent name =>
      refine (looks_defineModuleUnder ..).keeps (P := Settles r _) (.refl r _) fun h => ?_
      rcases defineModuleUnder_inv h with ⟨rfl, -⟩ | ⟨made, -, hmade, rfl⟩
      · exact .refl _ _
      · cases hmade
        exact .made (nests_allocType_adopt ..) valid (Nat.lt_irrefl _)
  | mixIn target m =>
      exact (looks_includeModule ..).keeps (P := Settles r _) (.refl r _) fun h =>
        .kept (SameNames.includeModule h).samePlaces
  | setConstant owner name value => exact .setConstant wf valid.1 name value
  | defineMethod owner name arity body =>
      have same : SameNames r (r.defineMethod owner name arity body) :=
        .modifyType r owner fun _ => rfl
      exact .kept same.samePlaces
  | makeSingleton o => exact .kept (SameNames.singletonWithin _ r o).samePlaces
  | defineShape name fields => exact .kept fun _ => ⟨rfl, rfl⟩
  | makeObject cls text => exact .kept fun _ => ⟨rfl, rfl⟩

-- ==================================================================== places

/-- A type has a place if and only if it has a name, and it lies in a type that
is there. -/
structure Placed (r : Registry) : Prop where
  nameless_iff : ∀ u : TypeId, (r.record u).name = none ↔ (r.record u).lexicalParent = none
  has : ∀ {u v : TypeId}, r.LiesIn u v → r.Has v
  root : r.LiesIn Core.object Core.object

namespace Nests

variable (nests : Nests r r' t p)

include nests

/-- A type that is given a place has none before. -/
theorem orphan (placed : r.Placed) : (r.record t).lexicalParent = none :=
  (placed.nameless_iff t).mp nests.nameless

theorem ne_of_liesIn (placed : r.Placed) {u v : TypeId} (lies : r.LiesIn u v) : u ≠ t := by
  rintro rfl
  have hnone := nests.orphan placed
  rw [show (r.record u).lexicalParent = some v from lies] at hnone
  cases hnone

theorem liesIn_mono (placed : r.Placed) {u v : TypeId} (lies : r.LiesIn u v) : r'.LiesIn u v :=
  (nests.others (nests.ne_of_liesIn placed lies)).2.trans lies

/-- A type lies where it lay, or it is the one that was given a place. -/
theorem liesIn_cases {u v : TypeId} (lies : r'.LiesIn u v) :
    r.LiesIn u v ∨ (u = t ∧ v = p) := by
  by_cases hu : u = t
  · subst hu
    exact .inr ⟨rfl, Option.some.inj (lies.symm.trans nests.parent)⟩
  · exact .inl ((nests.others hu).2.symm.trans lies)

theorem placed (placed : r.Placed) (grows : ∀ {u : TypeId}, r.Has u → r'.Has u)
    (has : r.Has p) : r'.Placed where
  nameless_iff u := by
    by_cases hu : u = t
    · subst hu
      rw [show (r'.record u).lexicalParent = some p from nests.parent]
      exact ⟨fun h => absurd h nests.named, nofun⟩
    · rw [(nests.others hu).1, (nests.others hu).2]
      exact placed.nameless_iff u
  has lies := by
    rcases nests.liesIn_cases lies with hold | ⟨-, rfl⟩
    · exact grows (placed.has hold)
    · exact grows has
  root := nests.liesIn_mono placed placed.root

/-- A place outside all that lies in a type closes no circle, and ends as the
ways from there end. -/
theorem wellNested (placed : r.Placed) (nested : r.WellNested)
    (outside : ¬ Relation.ReflTransGen r.LiesIn p t) : r'.WellNested where
  ends u := by
    have hmono : ∀ x y, Relation.ReflTransGen r.LiesIn x y → Relation.ReflTransGen r'.LiesIn x y :=
      fun x y => Relation.ReflTransGen.mono (fun _ _ => nests.liesIn_mono placed) x y
    -- a type that still has no place is no other than before
    have hstill : ∀ {top : TypeId}, top ≠ t →
        (top = Core.object ∨ (r.record top).lexicalParent = none) →
          top = Core.object ∨ (r'.record top).lexicalParent = none := by
      intro top ne hend
      rwa [(nests.others ne).2]
    obtain ⟨top, way, hend⟩ := nested.ends u
    by_cases htop : top = t
    · subst htop
      obtain ⟨top', way', hend'⟩ := nested.ends p
      have hne : top' ≠ top := by
        rintro rfl
        exact outside way'
      exact ⟨top', ((hmono _ _ way).tail nests.parent).trans (hmono _ _ way'), hstill hne hend'⟩
    · exact ⟨top, hmono _ _ way, hstill htop hend⟩
  root := nests.liesIn_mono placed nested.root
  circle {u} round := by
    rcases transGen_of_link nests.liesIn_cases round with hold | ⟨hto, hfrom⟩
    · exact nested.circle hold
    · exact absurd (hfrom.trans hto) outside

end Nests

namespace SamePlaces

variable (same : SamePlaces r r')

include same

theorem liesIn_eq : r'.LiesIn = r.LiesIn := by
  funext u v
  unfold LiesIn
  rw [(same u).2]

theorem placed (placed : r.Placed) (grows : ∀ {u : TypeId}, r.Has u → r'.Has u) : r'.Placed where
  nameless_iff u := by
    rw [(same u).1, (same u).2]
    exact placed.nameless_iff u
  has lies := by
    rw [same.liesIn_eq] at lies
    exact grows (placed.has lies)
  root := by
    rw [same.liesIn_eq]
    exact placed.root

theorem wellNested (nested : r.WellNested) : r'.WellNested where
  ends u := by
    obtain ⟨top, way, hend⟩ := nested.ends u
    rw [same.liesIn_eq]
    exact ⟨top, way, by rwa [(same top).2]⟩
  root := by
    rw [same.liesIn_eq]
    exact nested.root
  circle round := by
    rw [same.liesIn_eq] at round
    exact nested.circle round

end SamePlaces

-- ================================================================== what is kept

theorem Placed.apply (placed : r.Placed) (wf : r.WellFormed) {op : Operation}
    (valid : op.Valid r) : (op.apply r).Placed := by
  have hgrows : ∀ {u : TypeId}, r.Has u → (op.apply r).Has u := (Grows.apply wf op).has
  cases Settles.apply wf valid with
  | kept same => exact same.placed placed hgrows
  | made nests has _ => exact nests.placed placed hgrows has
  | found nests has _ => exact nests.placed placed hgrows has

theorem liesIn_apply (placed : r.Placed) (wf : r.WellFormed) {op : Operation}
    (valid : op.Valid r) {u v : TypeId} (lies : r.LiesIn u v) : (op.apply r).LiesIn u v := by
  cases Settles.apply wf valid with
  | kept same => rwa [same.liesIn_eq]
  | made nests _ _ => exact nests.liesIn_mono placed lies
  | found nests _ _ => exact nests.liesIn_mono placed lies

theorem WellNested.apply (nested : r.WellNested) (placed : r.Placed) (wf : r.WellFormed)
    {op : Operation} (valid : op.Valid r) (outside : ¬ op.NestsInItself r) :
    (op.apply r).WellNested := by
  cases Settles.apply wf valid with
  | kept same => exact same.wellNested nested
  | made nests has fresh =>
      refine nests.wellNested placed nested fun leads => fresh ?_
      -- only types that are there are led to
      rcases Relation.ReflTransGen.cases_tail leads with heq | ⟨_, -, lies⟩
      · rwa [heq]
      · exact placed.has lies
  | found nests _ guard => exact nests.wellNested placed nested fun leads => outside (guard leads)

/-- A type that is put into itself, or into what lies in it, lies in itself from
then on. -/
theorem exists_circle_of_nestsInItself (placed : r.Placed) (wf : r.WellFormed) {op : Operation}
    (closes : op.NestsInItself r) :
    ∃ u, u ≠ Core.object ∧ Relation.TransGen (op.apply r).LiesIn u u := by
  cases op with
  | setConstant owner name value =>
      obtain ⟨u, stands, nameless, unattached, leads⟩ := closes
      have hnests := nests_setConstant wf stands nameless unattached owner name
      refine ⟨u, (hnests.ne_of_liesIn placed placed.root).symm, ?_⟩
      exact .head' hnests.parent
        (Relation.ReflTransGen.mono (fun _ _ => hnests.liesIn_mono placed) _ _ leads)
  | _ => exact closes.elim

-- ======================================================================== runs

theorem liesIn_run (placed : r.Placed) (wf : r.WellFormed) (valid : Along Operation.Valid r ops)
    {u v : TypeId} (lies : r.LiesIn u v) : (r.run ops).LiesIn u v := by
  induction ops generalizing r with
  | nil => exact lies
  | cons op ops ih =>
      exact ih (placed.apply wf valid.1) (wf.apply valid.1) valid.2
        (liesIn_apply placed wf valid.1 lies)

/-- A run keeps lexical parents from leading round exactly if each of its
operations does. -/
theorem WellNested.run_iff (nested : r.WellNested) (placed : r.Placed) (wf : r.WellFormed)
    (valid : Along Operation.Valid r ops) :
    (r.run ops).WellNested ↔ Along (fun r op => ¬ op.NestsInItself r) r ops := by
  induction ops generalizing r with
  | nil => exact ⟨fun _ => trivial, fun _ => nested⟩
  | cons op ops ih =>
      have hwf := wf.apply valid.1
      have hplaced := placed.apply wf valid.1
      by_cases closes : op.NestsInItself r
      · refine ⟨fun after => ?_, fun along => absurd closes along.1⟩
        obtain ⟨u, ne, round⟩ := exists_circle_of_nestsInItself placed wf closes
        -- the circle is there at the end as well
        have hround : Relation.TransGen ((op.apply r).run ops).LiesIn u u :=
          Relation.TransGen.mono (fun _ _ => liesIn_run hplaced hwf valid.2) _ _ round
        exact absurd (after.circle hround) ne
      · refine (ih (nested.apply placed wf valid.1 closes) hplaced hwf valid.2).trans ?_
        exact ⟨fun along => ⟨closes, along⟩, fun along => along.2⟩

-- =================================================================== the start

/-- The first four types lie in `Object`. -/
theorem liesIn_initial {u v : TypeId} : initial.LiesIn u v ↔ u.index < 4 ∧ v = Core.object := by
  unfold LiesIn
  by_cases hu : u.index < 4
  · obtain ⟨name, -, -, hparent, -⟩ := named_initial hu
    rw [hparent]
    exact ⟨fun h => ⟨hu, (Option.some.inj h).symm⟩, fun h => congrArg some h.2.symm⟩
  · rw [record_of_not_has initial hu]
    exact ⟨nofun, fun h => absurd h.1 hu⟩

theorem placed_initial : initial.Placed where
  nameless_iff u := by
    by_cases hu : u.index < 4
    · obtain ⟨name, -, hname, hparent, -⟩ := named_initial hu
      rw [hname, hparent]
      exact ⟨nofun, nofun⟩
    · rw [record_of_not_has initial hu]
      exact ⟨fun _ => rfl, fun _ => rfl⟩
  has lies := by
    rw [(liesIn_initial.mp lies).2]
    decide
  root := liesIn_initial.mpr ⟨by decide, rfl⟩

theorem wellNested_initial : initial.WellNested where
  ends u := by
    by_cases hu : u.index < 4
    · exact ⟨Core.object, .single (liesIn_initial.mpr ⟨hu, rfl⟩), .inl rfl⟩
    · refine ⟨u, .refl, .inr ?_⟩
      rw [record_of_not_has initial hu]
      rfl
  root := placed_initial.root
  circle round := by
    obtain ⟨_, -, lies⟩ := Relation.TransGen.tail'_iff.mp round
    exact (liesIn_initial.mp lies).2

/-- After a run from the start, following lexical parents ends, and comes back
to nothing but `Object`, exactly if no operation of the run put a type without a
name into itself or into what lay in it. -/
theorem wellNested_iff_of_run (valid : Along Operation.Valid initial ops) :
    (initial.run ops).WellNested ↔ Along (fun r op => ¬ op.NestsInItself r) initial ops :=
  wellNested_initial.run_iff placed_initial wellFormed_initial valid

/-- A class without a name with another one inside, which holds a third. The first
gets its name from a module, long after the types inside it. -/
def namedLast : List Operation :=
  [.defineAnonymousClass Core.object none, .defineClass ⟨4⟩ (some Core.object) "Inner" none,
    .defineModule ⟨5⟩ "Deep", .defineModule Core.object "Outer",
    .setConstant ⟨7⟩ "Late" (.object ⟨4⟩), .makeSingleton ⟨4⟩]

theorem wellNested_iff_of_namedLast :
    Along Operation.Valid initial namedLast
      ∧ ((initial.run namedLast).record ⟨6⟩).lexicalParent = some ⟨5⟩
      ∧ ((initial.run namedLast).record ⟨5⟩).lexicalParent = some ⟨4⟩
      ∧ ((initial.run namedLast).record ⟨4⟩).lexicalParent = some ⟨7⟩
      ∧ (initial.run namedLast).WellNested := by
  have valid : Along Operation.Valid initial namedLast := by decide +kernel
  refine ⟨valid, by decide +kernel, by decide +kernel, by decide +kernel, ?_⟩
  have parent : ((initial.run (namedLast.take 4)).record ⟨7⟩).lexicalParent
      = some Core.object := by decide +kernel
  have root : ((initial.run (namedLast.take 4)).record Core.object).lexicalParent
      = some Core.object := by decide +kernel
  have class_ : (initial.run (namedLast.take 4)).typeOf? (.object ⟨4⟩) = some ⟨4⟩ := by
    decide +kernel
  -- from the module the way leads to `Object`, and not to the class
  have houtwards : ∀ {u : TypeId},
      Relation.ReflTransGen (initial.run (namedLast.take 4)).LiesIn ⟨7⟩ u →
        u = ⟨7⟩ ∨ u = Core.object := by
    intro u leads
    induction leads with
    | refl => exact .inl rfl
    | tail _ lies ih =>
        refine .inr (Option.some.inj (Eq.trans (Eq.symm lies) ?_))
        rcases ih with rfl | rfl
        · exact parent
        · exact root
  refine (wellNested_iff_of_run valid).mpr ⟨id, id, id, id, ?_, id, trivial⟩
  rintro ⟨u, stands, -, -, leads⟩
  obtain rfl := Option.some.inj (Eq.trans (Eq.symm stands) class_)
  rcases houtwards leads with h | h
  · exact absurd h (by decide)
  · exact absurd h (by decide)

/-- A class without a name is bound inside itself. -/
def insideItself : List Operation :=
  [.defineAnonymousClass Core.object none, .setConstant ⟨4⟩ "Self" (.object ⟨4⟩)]

/-- Its lexical parents never end. -/
theorem not_wellNested_insideItself :
    Along Operation.Valid initial insideItself
      ∧ ((initial.run insideItself).record ⟨4⟩).lexicalParent = some ⟨4⟩
      ∧ ¬ (initial.run insideItself).WellNested := by
  have lies : ((initial.run insideItself).record ⟨4⟩).lexicalParent = some ⟨4⟩ := by
    decide +kernel
  refine ⟨by decide +kernel, lies, fun nested => ?_⟩
  exact absurd (nested.circle (.single lies)) (by decide)

end Registry

end ObjectModel
