/-
The recursions through a registry end.

Five recursions follow links: from a module to what it mixes in, to list it all or
to look for one; up the superclasses, to list ancestors; up the superclasses with
a new singleton type at each level on the way back; and from a singleton type to
what it is attached to, for its name. The definitions that run bound each of them
by a number, and answer something when the number is used up. Here the recursions
are written without a bound, as relations between what they start from and what
they come back with: a derivation is a finished recursion. That the relations hold
of what the definitions answer, and of nothing else, says that the recursions end
and that no bound is ever met.

Each has a quantity of its own that falls: the types inside a module, the rank of
a class, the place of a singleton type. In the registry whose first class is still
its own superclass there is no such quantity, and the climb does not end
(`not_climbs_placeholders`).
-/
import ObjectModel.Proofs.Registry.Founded

namespace ObjectModel.Registry

variable {r : Registry}

-- ============================================================== the recursions

/-- A walk through some modules and what they mix in, each module once: what was
seen before and what was seen after. -/
inductive Visits (r : Registry) : List TypeId → List TypeId → List TypeId → Prop where
  | nil {seen : List TypeId} : Visits r [] seen seen
  | seen {m : TypeId} {ms seen out : List TypeId} :
      m ∈ seen → Visits r ms seen out → Visits r (m :: ms) seen out
  | fresh {m : TypeId} {ms seen inner out : List TypeId} :
      m ∉ seen → Visits r (r.record m).includes (seen ++ [m]) inner → Visits r ms inner out →
      Visits r (m :: ms) seen out

/-- A climb up the superclasses, with a walk through what each of them mixes in. -/
inductive Climbs (r : Registry) : Option TypeId → List TypeId → List TypeId → Prop where
  | none {seen : List TypeId} : Climbs r none seen seen
  | some {t : TypeId} {seen mixed out : List TypeId} :
      Visits r (r.record t).includes (if t ∈ seen then seen else seen ++ [t]) mixed →
      Climbs r (r.record t).superclass mixed out → Climbs r (some t) seen out

/-- A search for a type among some modules and what they mix in. It keeps no list
of what it has seen, and stops where it finds the type. -/
inductive Seeks (r : Registry) (target : TypeId) : List TypeId → Bool → Prop where
  | nil : Seeks r target [] false
  | here {ms : List TypeId} : Seeks r target (target :: ms) true
  | inside {m : TypeId} {ms : List TypeId} :
      m ≠ target → Seeks r target (r.record m).includes true → Seeks r target (m :: ms) true
  | past {m : TypeId} {ms : List TypeId} {found : Bool} :
      m ≠ target → Seeks r target (r.record m).includes false → Seeks r target ms found →
      Seeks r target (m :: ms) found

/-- A request for a singleton type, which asks for the one above it first. -/
inductive Obtains : Registry → ObjectId → TypeId × Registry → Prop where
  | held {r : Registry} {o : ObjectId} {s : TypeId} :
      (r.cell o).singleton = some s → Obtains r o (s, r)
  | object {r : Registry} {o : ObjectId} :
      (r.cell o).singleton = none → r.denotes? o = none →
      Obtains r o (r.attachSingleton o (r.cell o).logicalType)
  | module {r : Registry} {o : ObjectId} {t : TypeId} :
      (r.cell o).singleton = none → r.denotes? o = some t → (r.record t).kind = .moduleType →
      Obtains r o (r.attachSingleton o Core.moduleType)
  | root {r : Registry} {o : ObjectId} {t : TypeId} :
      (r.cell o).singleton = none → r.denotes? o = some t → (r.record t).kind = .classType →
      (r.record t).superclass = none → Obtains r o (r.attachSingleton o Core.classType)
  | subclass {r r' : Registry} {o : ObjectId} {t parent above : TypeId} :
      (r.cell o).singleton = none → r.denotes? o = some t → (r.record t).kind = .classType →
      (r.record t).superclass = some parent → Obtains r (r.record parent).object (above, r') →
      Obtains r o (r'.attachSingleton o above)

/-- The name of a type in messages, after what it is attached to. -/
inductive Displays (r : Registry) : TypeId → String → Prop where
  | named {t : TypeId} {name : String} : (r.record t).name = some name → Displays r t name
  | place {t : TypeId} :
      (r.record t).name = none → (r.record t).attached = none → Displays r t (r.placeName t)
  | ofType {t inner : TypeId} {o : ObjectId} {text : String} :
      (r.record t).name = none → (r.record t).attached = some o → r.denotes? o = some inner →
      Displays r inner text → Displays r t ("#<Class:" ++ text ++ ">")
  | ofObject {t : TypeId} {o : ObjectId} {text : String} :
      (r.record t).name = none → (r.record t).attached = some o → r.denotes? o = none →
      Displays r (r.cell o).logicalType text → Displays r t ("#<Class:#<" ++ text ++ ">>")

/-- The recursions end, and the definitions answer what they come back with. -/
structure RecursionsEnd (r : Registry) : Prop where
  visits_iff : ∀ {m : TypeId}, r.Has m → ∀ seen out : List TypeId,
    r.Visits [m] seen out ↔ out = r.moduleWalk r.size m seen
  climbs_iff : ∀ {t : TypeId}, r.Has t → ∀ out : List TypeId,
    r.Climbs (some t) [] out ↔ out = r.ancestors t
  seeks_iff : ∀ {m : TypeId}, r.Has m → ∀ (target : TypeId) (found : Bool),
    r.Seeks target (r.record m).includes found ↔ found = r.mixesIn r.size m target
  obtains_iff : ∀ {o : ObjectId}, r.Holds o → ∀ answer : TypeId × Registry,
    r.Obtains o answer ↔ answer = r.singletonOf o
  displays_iff : ∀ {t : TypeId}, r.Has t → ∀ text : String,
    r.Displays t text ↔ text = r.displayName t
  /-- A singleton type is younger than what it is attached to. -/
  attached_older : ∀ {s t : TypeId} {o : ObjectId}, (r.record s).attached = some o →
    r.denotes? o = some t → t.index < s.index

-- ================================================================ one answer

theorem Visits.unique {ms seen a b : List TypeId} (one : r.Visits ms seen a)
    (other : r.Visits ms seen b) : a = b := by
  induction one generalizing b with
  | nil =>
      cases other
      rfl
  | seen mem _ ih =>
      cases other with
      | seen _ rest => exact ih rest
      | fresh new => exact absurd mem new
  | fresh new _ _ ihInner ihRest =>
      cases other with
      | seen mem => exact absurd mem new
      | fresh _ inner rest =>
          obtain rfl := ihInner inner
          exact ihRest rest

theorem Climbs.unique {start : Option TypeId} {seen a b : List TypeId}
    (one : r.Climbs start seen a) (other : r.Climbs start seen b) : a = b := by
  induction one generalizing b with
  | none =>
      cases other
      rfl
  | some mixed _ ih =>
      cases other with
      | some mixed' rest =>
          obtain rfl := mixed.unique mixed'
          exact ih rest

theorem Seeks.unique {target : TypeId} {ms : List TypeId} {a b : Bool}
    (one : r.Seeks target ms a) (other : r.Seeks target ms b) : a = b := by
  induction one generalizing b with
  | nil =>
      cases other
      rfl
  | here =>
      cases other with
      | here => rfl
      | inside ne => exact absurd rfl ne
      | past ne => exact absurd rfl ne
  | inside ne _ ih =>
      cases other with
      | here => rfl
      | inside => rfl
      | past _ inner _ => exact absurd (ih inner) (by decide)
  | past ne _ _ ihInner ihRest =>
      cases other with
      | here => exact absurd rfl ne
      | inside _ inner => exact absurd (ihInner inner) (by decide)
      | past _ _ rest => exact ihRest rest

theorem Displays.unique {t : TypeId} {a b : String} (one : r.Displays t a)
    (other : r.Displays t b) : a = b := by
  induction one generalizing b with
  | named hname => cases other <;> simp_all
  | place hname hattached => cases other <;> simp_all
  | ofType hname hattached hdenotes _ ih =>
      cases other with
      | named h => simp [hname] at h
      | place _ h => simp [hattached] at h
      | ofType _ h hd inner =>
          cases hattached.symm.trans h
          cases hdenotes.symm.trans hd
          rw [ih inner]
      | ofObject _ h hd =>
          cases hattached.symm.trans h
          cases hdenotes.symm.trans hd
  | ofObject hname hattached hdenotes _ ih =>
      cases other with
      | named h => simp [hname] at h
      | place _ h => simp [hattached] at h
      | ofType _ h hd =>
          cases hattached.symm.trans h
          cases hdenotes.symm.trans hd
      | ofObject _ h _ inner =>
          cases hattached.symm.trans h
          rw [ih inner]

theorem Obtains.unique {o : ObjectId} {a b : TypeId × Registry} (one : r.Obtains o a)
    (other : r.Obtains o b) : a = b := by
  induction one generalizing b with
  | held hs => cases other <;> simp_all
  | object free hd => cases other <;> simp_all
  | module free hd module_ => cases other <;> simp_all
  | root free hd class_ root => cases other <;> simp_all
  | subclass free hd class_ super _ ih =>
      cases other with
      | held hs => simp [free] at hs
      | object _ hd' => simp [hd] at hd'
      | module _ hd' module_ =>
          cases hd.symm.trans hd'
          simp [class_] at module_
      | root _ hd' _ root =>
          cases hd.symm.trans hd'
          simp [super] at root
      | subclass _ hd' _ super' inner =>
          cases hd.symm.trans hd'
          cases super.symm.trans super'
          cases ih inner
          rfl

-- ===================================================================== an answer

namespace Founded

variable (founded : r.Founded)

include founded

/-- A walk through modules comes back. The induction is on the bound, which is
above the depth of every module that is left, and inside on the list. -/
theorem visits_foldl : ∀ (fuel : Nat) (ms seen : List TypeId), (∀ m ∈ ms, r.nesting m < fuel) →
    r.Visits ms seen (ms.foldl (fun seen m => r.moduleWalk fuel m seen) seen) := by
  intro fuel
  induction fuel with
  | zero =>
      intro ms seen shallow
      cases ms with
      | nil => exact .nil
      | cons m ms => exact absurd (shallow m List.mem_cons_self) (Nat.not_lt_zero _)
  | succ fuel ih =>
      intro ms
      induction ms with
      | nil => exact fun seen _ => .nil
      | cons m ms ihList =>
          intro seen shallow
          have hm := shallow m List.mem_cons_self
          have hrest := fun seen => ihList seen fun a mem => shallow a (List.mem_cons_of_mem _ mem)
          rw [List.foldl_cons]
          unfold moduleWalk
          by_cases mem : m ∈ seen
          · rw [if_pos mem]
            exact .seen mem (hrest seen)
          · rw [if_neg mem]
            refine .fresh mem (ih _ _ fun a step => ?_) (hrest _)
            have hlt := founded.nested.nesting_lt step
            omega

theorem visits_includes (t : TypeId) (seen : List TypeId) :
    r.Visits (r.record t).includes seen
      ((r.record t).includes.foldl (fun seen m => r.moduleWalk r.size m seen) seen) :=
  founded.visits_foldl r.size _ seen fun _ _ => founded.nested.nesting_lt_size founded.size_pos

/-- A climb comes back, for the rank falls at every step. -/
theorem climbs_chainWalk : ∀ (fuel : Nat) (start : Option TypeId) (seen : List TypeId),
    (∀ t ∈ start, chainRank t < fuel) → r.Climbs start seen (r.chainWalk fuel start seen) := by
  intro fuel
  induction fuel with
  | zero =>
      intro start seen short
      cases start with
      | none => exact .none
      | some t => exact absurd (short t rfl) (Nat.not_lt_zero _)
  | succ fuel ih =>
      intro start seen short
      cases start with
      | none => exact .none
      | some t =>
          have ht := short t rfl
          unfold chainWalk
          refine .some (founded.visits_includes t _) (ih _ _ fun u super => ?_)
          have hlt := (founded.superclass_some super).2
          omega

/-- A search comes back, though it goes through a module as often as it meets it. -/
theorem seeks_any (target : TypeId) : ∀ (fuel : Nat) (ms : List TypeId),
    (∀ m ∈ ms, r.nesting m < fuel) →
      r.Seeks target ms (ms.any fun m => m = target || r.mixesIn fuel m target) := by
  intro fuel
  induction fuel with
  | zero =>
      intro ms shallow
      cases ms with
      | nil => exact .nil
      | cons m ms => exact absurd (shallow m List.mem_cons_self) (Nat.not_lt_zero _)
  | succ fuel ih =>
      intro ms
      induction ms with
      | nil => exact fun _ => .nil
      | cons m ms ihList =>
          intro shallow
          have hm := shallow m List.mem_cons_self
          have hrest := ihList fun a mem => shallow a (List.mem_cons_of_mem _ mem)
          have hinner : r.Seeks target (r.record m).includes (r.mixesIn (fuel + 1) m target) := by
            refine ih _ fun a step => ?_
            have hlt := founded.nested.nesting_lt step
            omega
          rw [List.any_cons]
          by_cases heq : m = target
          · subst heq
            rw [decide_eq_true rfl, Bool.true_or, Bool.true_or]
            exact .here
          · rw [decide_eq_false heq, Bool.false_or]
            cases hfound : r.mixesIn (fuel + 1) m target with
            | true =>
                rw [hfound] at hinner
                rw [Bool.true_or]
                exact .inside heq hinner
            | false =>
                rw [hfound] at hinner
                rw [Bool.false_or]
                exact .past heq hinner hrest

/-- A name comes back, for what a singleton type is attached to is older. -/
theorem displays_displayWithin : ∀ (fuel : Nat) (t : TypeId), r.Has t → t.index < fuel →
    r.Displays t (r.displayWithin fuel t) := by
  intro fuel
  induction fuel with
  | zero => intro t _ h; exact absurd h (Nat.not_lt_zero _)
  | succ fuel ih =>
      intro t has hlt
      unfold displayWithin
      split
      · next name hname => exact .named hname
      · next hname =>
        split
        · next hattached => exact .place hname hattached
        · next o hattached =>
          obtain ⟨holds, older⟩ := (founded.types has).attached_some hattached
          have hhas := (founded.objects holds).has_namesake
          unfold namesake at hhas older
          split
          · next inner hd =>
            rw [hd, Option.getD_some] at hhas older
            exact .ofType hname hattached hd (ih inner hhas (by omega))
          · next hd =>
            rw [hd, Option.getD_none] at hhas older
            exact .ofObject hname hattached hd (ih _ hhas (by omega))

/-- A request comes back, for the rank falls from a class to the one above it. -/
theorem obtains_singletonWithin : ∀ (fuel : Nat) (o : ObjectId),
    (∀ t, r.denotes? o = some t → chainRank t < fuel) →
      r.Obtains o (Registry.singletonWithin (fuel + 1) r o) := by
  intro fuel
  induction fuel with
  | zero =>
      intro o low
      unfold Registry.singletonWithin
      split
      · next s hs => exact .held hs
      · next free =>
        cases hd : r.denotes? o with
        | none => exact .object free hd
        | some t => exact absurd (low t hd) (Nat.not_lt_zero _)
  | succ fuel ih =>
      intro o low
      unfold Registry.singletonWithin
      split
      · next s hs => exact .held hs
      · next free =>
        cases hd : r.denotes? o with
        | none => exact .object free hd
        | some t =>
            dsimp only
            split
            · next module_ => exact .module free hd module_
            · next class_ root => exact .root free hd class_ root
            · next parent class_ super =>
              obtain ⟨hparent, hlt⟩ := founded.superclass_some super
              have ht := low t hd
              refine .subclass free hd class_ super (ih _ fun u hu => ?_)
              rw [(founded.types hparent).object_denotes.2] at hu
              cases hu
              omega

theorem recursionsEnd : r.RecursionsEnd where
  visits_iff {m} _ seen out := by
    have visits := founded.visits_foldl r.size [m] seen fun _ _ =>
      founded.nested.nesting_lt_size founded.size_pos
    exact ⟨fun h => h.unique visits, fun h => h ▸ visits⟩
  climbs_iff {t} has out := by
    have climbs := founded.climbs_chainWalk r.size (some t) [] fun u hu =>
      Option.some_inj.mp hu ▸ chainRank_lt_size founded.four_le_size has
    exact ⟨fun h => h.unique climbs, fun h => h ▸ climbs⟩
  seeks_iff {m} _ target found := by
    obtain ⟨n, hn⟩ := Nat.exists_eq_add_one_of_ne_zero (Nat.ne_of_gt founded.size_pos)
    have hm := founded.nested.nesting_lt_size (t := m) founded.size_pos
    have seeks : r.Seeks target (r.record m).includes (r.mixesIn r.size m target) := by
      rw [hn]
      refine founded.seeks_any target n _ fun a step => ?_
      have hlt := founded.nested.nesting_lt step
      omega
    exact ⟨fun h => h.unique seeks, fun h => h ▸ seeks⟩
  obtains_iff {o} holds answer := by
    have obtains : r.Obtains o (r.singletonOf o) :=
      founded.obtains_singletonWithin r.size o fun t hd =>
        chainRank_lt_size founded.four_le_size (founded.denotes_has hd)
    exact ⟨fun h => h.unique obtains, fun h => h ▸ obtains⟩
  displays_iff {t} has text := by
    have displays := founded.displays_displayWithin (t.index + 1) t has (Nat.lt_succ_self _)
    exact ⟨fun h => h.unique displays, fun h => h ▸ displays⟩
  attached_older {s t o} h hd := by
    have older := ((founded.types (has_of_attached h)).attached_some h).2
    unfold namesake at older
    rwa [hd] at older

end Founded

-- ================================================================ every registry

/-- As long as `Class` is its own superclass, a climb from it does not come back. -/
theorem not_climbs_placeholders (seen out : List TypeId) :
    ¬ placeholders.Climbs (some Core.classType) seen out := by
  intro climbs
  generalize hstart : some Core.classType = start at climbs
  induction climbs with
  | none => cases hstart
  | some _ _ ih =>
      cases hstart
      exact ih rfl

/-- In every registry that operations lead to the recursions end, for all of its
types and objects. -/
theorem recursions_end (arises : r.Arises) : r.RecursionsEnd :=
  arises.founded.recursionsEnd

/-- A module in another one, which cannot be mixed in the other way as well, the
singleton type of the outer one, and an object that was made from this module and
claims to stand for that singleton type. -/
theorem recursions_end_for_claim :
    let r := (Operation.makeSingleton ⟨7⟩).apply
      (((Operation.makeSingleton ⟨5⟩).apply ((Operation.mixIn ⟨4⟩ ⟨5⟩).apply
        ((Operation.mixIn ⟨5⟩ ⟨4⟩).apply ((Operation.defineModule Core.object "Outer").apply
          ((Operation.defineModule Core.object "Inner").apply initial))))).allocObject
            ⟨5⟩ (.type ⟨6⟩)).2
    r.Arises ∧ r.RecursionsEnd ∧ r.displayName ⟨10⟩ = "#<Class:#<Class:Outer>>" := by
  intro r
  have arises : r.Arises := by
    refine .apply _ (.allocObject _ _ (.apply _ (.apply _ (.apply _ (.apply _ (.apply _ .initial
      ?_) ?_) ?_) ?_) ?_) ?_ ?_) ?_
    · decide +kernel
    · decide +kernel
    · decide +kernel
    · decide +kernel
    · decide +kernel
    · decide +kernel
    · intro u hu
      cases hu
      decide +kernel
    · decide +kernel
  exact ⟨arises, recursions_end arises, by decide +kernel⟩

end ObjectModel.Registry
