/-
Qualified names resolve back.

A type that lies in other types is named after them: the names of the constants
that lead to it, from `Object` on, with double colons in between. This holds if
each type on the way got its name when the type around it had one already
(`Rooted` along `NamedBefore`); then the name is a path that resolves to the
type, so no two such types share a name (`namesResolve_of_run`).

The order matters. A class that is defined inside a class without a name is
called by its constant alone, and goes on so when the outer class gets a name
(`late_name_not_resolved`).
-/
import ObjectModel.Proofs.Registry.Naming

namespace ObjectModel.Registry

variable {ops before after : List Operation} {t p : TypeId} {name : String}

-- ============================================================ points of a run

theorem wellFormed_run (along : Along Operation.ValidAnew initial ops) :
    (initial.run ops).WellFormed :=
  Reachable.wellFormed (evolves_run (along.imp fun _ _ valid => valid.1))

/-- From one point of a run to a later one. -/
theorem keepsNames_between (along : Along Operation.ValidAnew initial ops)
    (le : before <+: after) (within : after <+: ops) :
    KeepsNames (initial.run before) (initial.run after) := by
  obtain ⟨rest, rfl⟩ := le
  obtain ⟨others, rfl⟩ := within
  obtain ⟨hbefore, hrest⟩ := Along.append_iff.mp (Along.append_iff.mp along).1
  have hrun : initial.run (before ++ rest) = (initial.run before).run rest := List.foldl_append
  rw [hrun]
  exact .run (wellFormed_run hbefore) hrest

/-- Where a type has no name, it was not given one before. -/
theorem le_of_nameless {earlier : List Operation} {op : Operation}
    (along : Along Operation.ValidAnew initial ops) (early : earlier <+: ops)
    (within : before ++ [op] <+: ops)
    (named : ((initial.run (before ++ [op])).record t).name = some name)
    (nameless : ((initial.run earlier).record t).name = none) : earlier <+: before := by
  have hnot : ¬ before ++ [op] <+: earlier := by
    intro hle
    rw [((keepsNames_between along hle early).named named).1] at nameless
    cases nameless
  rcases List.prefix_or_prefix_of_prefix early within with hle | hle
  · rcases List.prefix_concat_iff.mp hle with rfl | hle
    · exact absurd List.prefix_rfl hnot
    · exact hle
  · exact absurd hle hnot

/-- At some point of a run the one type has a name and the other has none. -/
def NamedBefore (ops : List Operation) (p t : TypeId) : Prop :=
  ∃ before, before <+: ops ∧ ((initial.run before).record p).name.isSome = true
    ∧ ((initial.run before).record t).name = none

-- ====================================================== names and their parents

/-- The first four types are constants of `Object` and have their names. -/
theorem named_initial (h : t.index < 4) : ∃ name, PlainName name
    ∧ (initial.record t).name = some name
    ∧ (initial.record t).lexicalParent = some Core.object
    ∧ initial.constant? Core.object name = some (initial.typeValue t) := by
  obtain ⟨i⟩ := t
  match i, h with
  | 0, _ => exact ⟨"Class", by decide +kernel⟩
  | 1, _ => exact ⟨"BasicObject", by decide +kernel⟩
  | 2, _ => exact ⟨"Object", by decide +kernel⟩
  | 3, _ => exact ⟨"Module", by decide +kernel⟩

/-- How a type is called after a run, by its constant in its lexical parent: by
the constant's name, behind the parent's name if the parent had one first. -/
structure NamedIn (ops : List Operation) (t p : TypeId) (name : String) : Prop where
  plain : PlainName name
  bound : (initial.run ops).constant? p name = some ((initial.run ops).typeValue t)
  bare : p = Core.object ∨ ¬ NamedBefore ops p t →
    ((initial.run ops).record t).name = some name
  qualified : p ≠ Core.object → NamedBefore ops p t →
    ∃ outer, ((initial.run ops).record p).name = some outer
      ∧ ((initial.run ops).record t).name = some (outer ++ "::" ++ name)

/-- A type that was adopted in a run is called after its parent of that moment. -/
theorem Adopted.namedIn {op : Operation} (along : Along Operation.ValidAnew initial ops)
    (within : before ++ [op] <+: ops)
    (adopted : Adopted (initial.run before) (initial.run (before ++ [op])) t p name) :
    NamedIn ops t p name := by
  have keeps := keepsNames_between along within List.prefix_rfl
  have hname := (keeps.named adopted.name_eq).1
  have hearlier : before <+: ops := (List.prefix_append _ _).trans within
  constructor
  · exact adopted.plain
  · refine keeps.bound_type ?_ adopted.bound
    by_contra hno
    have hsome := adopted.name_eq
    rw [record_of_not_has _ hno] at hsome
    cases hsome
  · intro hbare
    rw [hname, qualify_bare]
    rcases hbare with rfl | hnot
    · exact .inl rfl
    · refine .inr (Option.not_isSome_iff_eq_none.mp fun hsome => hnot ?_)
      exact ⟨before, hearlier, hsome, adopted.nameless⟩
  · rintro ne ⟨earlier, early, hsome, hnone⟩
    have hle := le_of_nameless along early within adopted.name_eq hnone
    obtain ⟨outer, houter⟩ := Option.isSome_iff_exists.mp hsome
    have hthere := ((keepsNames_between along hle hearlier).named houter).1
    have hend := ((keepsNames_between along hearlier List.prefix_rfl).named hthere).1
    exact ⟨outer, hend, by rw [hname, qualify_nested ne hthere]⟩

/-- Every type with a lexical parent is called after it. -/
theorem exists_namedIn (along : Along Operation.ValidAnew initial ops)
    (parent : ((initial.run ops).record t).lexicalParent = some p) :
    ∃ name, NamedIn ops t p name := by
  by_cases hcore : t.index < 4
  · obtain ⟨name, plain, hname, hparent, bound⟩ := named_initial hcore
    have keeps := keepsNames_between along List.nil_prefix List.prefix_rfl
    obtain ⟨hname', hparent'⟩ := keeps.named hname
    cases parent.symm.trans (hparent'.trans hparent)
    refine ⟨name, plain, keeps.bound_type hcore bound, fun _ => hname', ?_⟩
    exact fun ne => absurd rfl ne
  · have orphan : (initial.record t).lexicalParent = none := by
      rw [record_of_not_has initial hcore]
      rfl
    obtain ⟨before, op, name, hwithin, adopted⟩ :=
      exists_adoption wellFormed_initial along orphan parent
    exact ⟨name, adopted.namedIn along hwithin⟩

-- ============================================================= qualified names

/-- The lexical parents of a type lead to `Object` through types with names, and
every two on the way below `Object` are linked. -/
inductive Rooted (r : Registry) (link : TypeId → TypeId → Prop) : TypeId → Prop
  | top {t : TypeId} {name : String} (named : (r.record t).name = some name)
      (parent : (r.record t).lexicalParent = some Core.object) : Rooted r link t
  | inside {t p : TypeId} {name : String} (named : (r.record t).name = some name)
      (parent : (r.record t).lexicalParent = some p) (ne : p ≠ Core.object)
      (linked : link p t) (outer : Rooted r link p) : Rooted r link t

/-- If each type got its name after the one around it, the name is the path of
the constants that lead to the type. -/
theorem Rooted.exists_path (along : Along Operation.ValidAnew initial ops)
    (rooted : (initial.run ops).Rooted (NamedBefore ops) t) :
    ∃ names, (∀ n ∈ names, PlainName n) ∧ (initial.run ops).LeadsTo t names
      ∧ ((initial.run ops).record t).name = some ("::".intercalate names) := by
  induction rooted with
  | top _ parent =>
      obtain ⟨name, named⟩ := exists_namedIn along parent
      refine ⟨[name], List.forall_mem_singleton.mpr named.plain, .top parent named.bound, ?_⟩
      rw [String.intercalate_singleton]
      exact named.bare (.inl rfl)
  | inside _ parent ne linked _ ih =>
      obtain ⟨names, plain, leads, houter⟩ := ih
      obtain ⟨name, named⟩ := exists_namedIn along parent
      obtain ⟨outer, houter', hname⟩ := named.qualified ne linked
      cases houter.symm.trans houter'
      refine ⟨names ++ [name], ?_, .inside parent ne leads named.bound, ?_⟩
      · exact List.forall_mem_append.mpr ⟨plain, List.forall_mem_singleton.mpr named.plain⟩
      · rw [hname, String.intercalate_append_of_ne_nil leads.ne_nil (List.cons_ne_nil _ _),
          String.intercalate_singleton]

/-- What the names of types say after a run. -/
structure NamesResolve (ops : List Operation) : Prop where
  /-- A name once given never changes. -/
  kept : ∀ {before : List Operation} {t : TypeId} {name : String}, before <+: ops →
    ((initial.run before).record t).name = some name →
    ((initial.run ops).record t).name = some name
  /-- A name is the path of the constants that lead to the type, and resolves. -/
  resolves : ∀ {t : TypeId}, (initial.run ops).Rooted (NamedBefore ops) t →
    ∃ names, (initial.run ops).LeadsTo t names
      ∧ ((initial.run ops).record t).name = some ("::".intercalate names)
      ∧ (initial.run ops).resolve? ("::".intercalate names)
          = some ((initial.run ops).typeValue t)
  /-- Different types have different names. -/
  distinct : ∀ {t u : TypeId}, (initial.run ops).Rooted (NamedBefore ops) t →
    (initial.run ops).Rooted (NamedBefore ops) u → t ≠ u →
    ((initial.run ops).record t).name ≠ ((initial.run ops).record u).name
  /-- A type that got its name while its lexical parent had none is called by its
  constant alone. -/
  bare : ∀ {t p : TypeId}, ((initial.run ops).record t).lexicalParent = some p →
    ¬ NamedBefore ops p t →
    ∃ name, (initial.run ops).constant? p name = some ((initial.run ops).typeValue t)
      ∧ ((initial.run ops).record t).name = some name

/-- A run that binds no constant again gives names that stay and resolve back. -/
theorem namesResolve_of_run (along : Along Operation.ValidAnew initial ops) :
    NamesResolve ops := by
  have wf := wellFormed_run along
  have hresolves {t : TypeId} (rooted : (initial.run ops).Rooted (NamedBefore ops) t) :
      ∃ names, (initial.run ops).LeadsTo t names
        ∧ ((initial.run ops).record t).name = some ("::".intercalate names)
        ∧ (initial.run ops).resolve? ("::".intercalate names)
            = some ((initial.run ops).typeValue t) := by
    obtain ⟨names, plain, leads, hname⟩ := rooted.exists_path along
    exact ⟨names, leads, hname, leads.resolve?_eq wf plain⟩
  constructor
  · intro before t name hwithin hname
    exact ((keepsNames_between along hwithin List.prefix_rfl).named hname).1
  · exact hresolves
  · intro t u rootedT rootedU ne heq
    obtain ⟨names, leads, hname, hresolve⟩ := hresolves rootedT
    obtain ⟨names', leads', hname', hresolve'⟩ := hresolves rootedU
    -- one path resolves to one value, and a value stands for one type
    rw [hname, hname'] at heq
    rw [Option.some.inj heq, hresolve'] at hresolve
    have hdenotes := wf.object_denotes leads.has
    have hobject : ((initial.run ops).record u).object = ((initial.run ops).record t).object :=
      Value.object.inj (Option.some.inj hresolve)
    rw [← hobject, wf.object_denotes leads'.has] at hdenotes
    exact ne (Option.some.inj hdenotes).symm
  · intro t p parent hnot
    obtain ⟨name, named⟩ := exists_namedIn along parent
    exact ⟨name, named.bound, named.bare (.inr hnot)⟩

/-- A module, a class without a name that is then bound inside the module, and a
class inside that one; then a mixin and a singleton type. -/
def nestedNames : List Operation :=
  [.defineModule Core.object "Outer", .defineAnonymousClass Core.object none,
    .setConstant ⟨4⟩ "Inner" (.object ⟨5⟩), .defineClass ⟨5⟩ (some Core.object) "Deep" none,
    .mixIn ⟨6⟩ ⟨4⟩, .makeSingleton ⟨6⟩]

theorem namesResolve_of_nestedNames :
    Along Operation.ValidAnew initial nestedNames
      ∧ (initial.run nestedNames).Rooted (NamedBefore nestedNames) ⟨6⟩
      ∧ ((initial.run nestedNames).record ⟨6⟩).name = some "Outer::Inner::Deep"
      ∧ (initial.run nestedNames).resolve? "Outer::Inner::Deep"
          = some ((initial.run nestedNames).typeValue ⟨6⟩)
      ∧ NamesResolve nestedNames := by
  have along : Along Operation.ValidAnew initial nestedNames := by decide +kernel
  have outermost : (initial.run nestedNames).Rooted (NamedBefore nestedNames) ⟨4⟩ :=
    .top (by decide +kernel : _ = some "Outer") (by decide +kernel)
  have middle : (initial.run nestedNames).Rooted (NamedBefore nestedNames) ⟨5⟩ :=
    .inside (by decide +kernel : _ = some "Outer::Inner") (by decide +kernel) (by decide)
      ⟨nestedNames.take 2, List.take_prefix _ _, by decide +kernel, by decide +kernel⟩ outermost
  have rooted : (initial.run nestedNames).Rooted (NamedBefore nestedNames) ⟨6⟩ :=
    .inside (by decide +kernel : _ = some "Outer::Inner::Deep") (by decide +kernel) (by decide)
      ⟨nestedNames.take 3, List.take_prefix _ _, by decide +kernel, by decide +kernel⟩ middle
  exact ⟨along, rooted, by decide +kernel, by decide +kernel, namesResolve_of_run along⟩

/-- A class inside a class without a name, which then gets one. -/
def lateName : List Operation :=
  [.defineAnonymousClass Core.object none, .defineClass ⟨4⟩ (some Core.object) "Inner" none,
    .setConstant Core.object "Outer" (.object ⟨4⟩)]

/-- Constants lead through two types with names to the inner class, but its name
is not their path and resolves to nothing. -/
theorem late_name_not_resolved :
    Along Operation.ValidAnew initial lateName
      ∧ (initial.run lateName).Rooted (fun _ _ => True) ⟨5⟩
      ∧ (initial.run lateName).LeadsTo ⟨5⟩ ["Outer", "Inner"]
      ∧ ((initial.run lateName).record ⟨4⟩).name = some "Outer"
      ∧ ((initial.run lateName).record ⟨5⟩).name = some "Inner"
      ∧ (initial.run lateName).resolve? "Inner" = none := by
  have named : ((initial.run lateName).record ⟨5⟩).name = some "Inner" := by decide +kernel
  have outerNamed : ((initial.run lateName).record ⟨4⟩).name = some "Outer" := by decide +kernel
  have parent : ((initial.run lateName).record ⟨5⟩).lexicalParent = some ⟨4⟩ := by decide +kernel
  have outerParent : ((initial.run lateName).record ⟨4⟩).lexicalParent = some Core.object := by
    decide +kernel
  have leads : (initial.run lateName).LeadsTo ⟨4⟩ ["Outer"] :=
    .top outerParent (by decide +kernel)
  refine ⟨by decide +kernel, ?_, ?_, outerNamed, named, by decide +kernel⟩
  · exact .inside named parent (by decide) trivial (.top outerNamed outerParent)
  · exact .inside parent (by decide) leads (by decide +kernel)

end ObjectModel.Registry
