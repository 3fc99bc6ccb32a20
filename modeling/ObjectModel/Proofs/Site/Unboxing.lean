/-
Operators of foreign objects.

An operator sent to a foreign object that stands for a primitive is sent again
to the primitive. That is the last of the rules for foreign receivers, and a
method that lookup finds goes before all of them: two operators are methods of
`BasicObject`, which foreign objects have like all others. `==` with one
argument asks whether the argument is the foreign object itself, and `!` is
false. Every other operator ends for the object as it ends for its primitive.
-/
import ObjectModel.Proofs.Boot.Operators
import ObjectModel.Proofs.Core.Arithmetic
import ObjectModel.Proofs.Site.Run

namespace ObjectModel

open Registry

-- ==================================================================== primitives

namespace Machine

variable {natives : Natives} {m asked m' : Machine} {u : Value}

/-- Unboxing asks the object, which changes no registry, and comes to a value. -/
theorem exists_asked_of_unbox {f : ForeignId} {kind : PrimitiveKind} {outcome : Outcome}
    (h : (m.primitiveKind f).2.unbox kind f = some (outcome, m')) :
    ∃ asked : Machine, asked.registry = m.registry ∧ Unboxing asked outcome m' := by
  obtain ⟨message, unboxing⟩ := unboxing_of_unbox h
  refine ⟨_, ?_, unboxing⟩
  rw [registry_deliver, registry_primitiveKind]

namespace Unboxing

variable (unboxing : Unboxing m (.ok u) m')

include unboxing

theorem metaType_mem : m'.metaType u ∈ unboxedTypes := by
  cases unboxing with
  | bool b =>
      cases b with
      | false => exact (by decide : Core.falseClass ∈ unboxedTypes)
      | true => exact (by decide : Core.trueClass ∈ unboxedTypes)
  | fixnum n => exact (by decide : Core.integer ∈ unboxedTypes)
  | float x => exact (by decide : Core.float ∈ unboxedTypes)
  | text text =>
      have hcell := cell_allocObject_new m.registry Core.string (.text text)
      have hmeta : (m.newString text).2.metaType (m.newString text).1 = Core.string := by
        show HeapObject.metaType ((m.registry.allocObject Core.string (.text text)).2.cell _) = _
        rw [hcell]
        rfl
      rw [hmeta]
      decide

theorem keeps : Keeps m.registry m'.registry := by
  cases unboxing with
  | bool | fixnum | float => exact .refl _
  | text text => exact (Keeps.refl m.registry).allocObject Core.string (.text text)

theorem keeps_of_same {before : Machine} (same : m.registry = before.registry) :
    Keeps before.registry m'.registry := same ▸ unboxing.keeps

/-- The value is truthy, unless it is false. -/
theorem isTruthy (ne : u ≠ .bool false) : u.isTruthy = true := by
  cases unboxing with
  | bool b =>
      cases b with
      | false => exact absurd rfl ne
      | true => rfl
  | fixnum | float | text => rfl

theorem ne_foreign (f : ForeignId) : u ≠ .foreign f := by
  cases unboxing with
  | bool | fixnum | float | text => exact nofun

/-- A wrong number of arguments is the same mistake before and after. -/
theorem argumentError_eq (mirrored : m.registry.Mirrored) (given : Nat) (expected : Arity) :
    m'.registry.argumentError given expected = m.registry.argumentError given expected := by
  cases unboxing with
  | bool | fixnum | float => rfl
  | text text =>
      unfold argumentError raise
      rw [show (m.newString text).2.registry.displayName _ = _ from
        mirrored.displayName_allocObject Core.string (.text text) _]

end Unboxing

-- ================================================================= short sends

/-- A send that turns into another one, which ends at once. -/
theorem send_of_resend {s next : Send} {m₁ : Machine} {outcome : Outcome}
    (first : step natives m s = (.resend next, m₁))
    (second : step natives m₁ next = (.finished outcome, m')) :
    m.send natives s = some (outcome, m') := by
  obtain ⟨n, hn⟩ := Nat.exists_eq_add_of_lt (m.one_lt_stepBudget s.args)
  unfold send
  rw [show m.stepBudget s.args = n + 1 + 1 by omega, run, first]
  dsimp only
  rw [run, second]

/-- A send with the wrong number of arguments ends at once. -/
theorem send_of_refused {s : Send} {method : Method}
    (found : m.lookup? s.receiver s.name = some method)
    (refused : method.arity.accepts s.args.length = false) :
    m.send natives s
      = some (.error (m.registry.argumentError s.args.length method.arity), m) := by
  refine send_of_finished ?_
  unfold step answerWith
  rw [found]
  dsimp only
  unfold invoke
  rw [refused]
  rfl

/-- A send to no foreign object that finds primitives at most ends at once. -/
theorem exists_step_finished {s : Send} (guest : ∀ f, s.receiver ≠ .foreign f)
    (primitive : ∀ method, m.lookup? s.receiver s.name = some method →
      method.body.isPrimitive = true) :
    ∃ outcome m', step natives m s = (.finished outcome, m') := by
  unfold step answerWith
  split
  · next method found =>
    have hbody := primitive method found
    unfold invoke
    split
    · unfold performBody
      cases hb : method.body with
      | primitive p => exact ⟨_, _, rfl⟩
      | _ =>
          rw [hb] at hbody
          cases hbody
    · exact ⟨_, _, rfl⟩
  · next hreceiver => exact absurd hreceiver (guest _)
  · exact ⟨_, _, rfl⟩

-- =================================================================== operators

theorem ofIndexing?_ne_operator (r : Registry) (name : String) (args : List Value) :
    OutgoingCall.ofIndexing? r name args ≠ some .operator := by
  intro h
  unfold OutgoingCall.ofIndexing? at h
  split at h
  · split at h
    · split at h
      · cases h
      · cases h
      · split at h <;> cases h
    · cases h
  · cases h

/-- A classified operator does not start with a letter. -/
theorem isOperator_of_classify {r : Registry} {name : String} {args : List Value}
    (h : OutgoingCall.classify r name args = .operator) :
    OutgoingCall.isOperator name = true := by
  unfold OutgoingCall.classify at h
  split at h
  · next call hindexing =>
    subst h
    exact absurd hindexing (ofIndexing?_ne_operator r name args)
  · split_ifs at h with _ _ _ hoperator
    exact hoperator

/-- Two sends end alike: with the same answer or the same exception, and in the
same machine if an object is answered. -/
def EndAlike (a b : Option (Outcome × Machine)) : Prop :=
  ∃ outcome m₁ m₂, a = some (outcome, m₁) ∧ b = some (outcome, m₂)
    ∧ ∀ o, outcome = .ok (.object o) → m₁ = m₂

section operators

variable {f : ForeignId} {name : String} {args : List Value}
  (unboxing : Unboxing asked (.ok u) m') (same : asked.registry = m.registry)

include unboxing same

/-- An operator that foreign objects do not know is sent again, and ends. -/
theorem endAlike_of_lacking (outfitted : m.registry.Outfitted)
    (answers : (m.primitiveKind f).2.unbox (m.primitiveKind f).1 f = some (.ok u, m'))
    (operator : OutgoingCall.classify m.registry name args = .operator)
    (lacks : m.registry.findMethod? Core.foreign name = none) :
    EndAlike (m.send natives ⟨.foreign f, name, args⟩) (m'.send natives ⟨u, name, args⟩) := by
  have hfirst : step natives m ⟨.foreign f, name, args⟩ = (.resend ⟨u, name, args⟩, m') := by
    unfold step answerWith
    rw [show m.lookup? (.foreign f) name = none from lacks]
    dsimp only
    unfold performForeign
    rw [operator]
    unfold performOutgoing performOperator
    dsimp only
    rw [answers]
  obtain ⟨outcome, m₁, hsecond⟩ : ∃ outcome m₁,
      step natives m' ⟨u, name, args⟩ = (.finished outcome, m₁) :=
    exists_step_finished unboxing.ne_foreign fun method found =>
      (outfitted.of_keeps (unboxing.keeps_of_same same)).isPrimitive_of_find
        unboxing.metaType_mem found
  exact ⟨outcome, m₁, m₁, send_of_resend hfirst hsecond, send_of_finished hsecond, fun _ _ => rfl⟩

/-- A method that both know, given the wrong number of arguments. -/
theorem endAlike_of_refused (mirrored : m.registry.Mirrored) {method method' : Method}
    (found : m.registry.findMethod? Core.foreign name = some method)
    (found' : m'.registry.findMethod? (m'.metaType u) name = some method')
    (arity : method'.arity = method.arity) (refused : method.arity.accepts args.length = false) :
    EndAlike (m.send natives ⟨.foreign f, name, args⟩) (m'.send natives ⟨u, name, args⟩) := by
  have hforeign : m.send natives ⟨.foreign f, name, args⟩
      = some (.error (m.registry.argumentError args.length method.arity), m) :=
    send_of_refused found refused
  have hguest : m'.send natives ⟨u, name, args⟩
      = some (.error (m'.registry.argumentError args.length method'.arity), m') :=
    send_of_refused found' (by rw [arity]; exact refused)
  rw [arity, unboxing.argumentError_eq (same ▸ mirrored), same] at hguest
  exact ⟨_, _, _, hforeign, hguest, nofun⟩

/-- `!` is false for both, unless an argument is given or the object stands for
false. -/
theorem endAlike_negation (outfitted : m.registry.Outfitted) (mirrored : m.registry.Mirrored)
    (allowed : ¬ (args = [] ∧ u = .bool false)) :
    EndAlike (m.send natives ⟨.foreign f, "!", args⟩) (m'.send natives ⟨u, "!", args⟩) := by
  have hfound := outfitted.negation List.mem_cons_self
  have hfound' := (outfitted.of_keeps (unboxing.keeps_of_same same)).negation
    (List.mem_cons_of_mem _ unboxing.metaType_mem)
  cases args with
  | nil =>
      have hforeign : m.send natives ⟨.foreign f, "!", []⟩ = some (.ok (.bool false), m) :=
        send_primitive _ hfound rfl rfl rfl
      have hguest : m'.send natives ⟨u, "!", []⟩ = some (.ok (.bool !u.isTruthy), m') :=
        send_primitive _ hfound' rfl rfl rfl
      rw [unboxing.isTruthy fun h => allowed ⟨rfl, h⟩] at hguest
      exact ⟨_, _, _, hforeign, hguest, nofun⟩
  | cons x rest => exact endAlike_of_refused unboxing same mirrored hfound hfound' rfl rfl

/-- `==` takes one argument, for both. -/
theorem endAlike_equal (outfitted : m.registry.Outfitted) (mirrored : m.registry.Mirrored)
    (refused : args.length ≠ 1) :
    EndAlike (m.send natives ⟨.foreign f, "==", args⟩) (m'.send natives ⟨u, "==", args⟩) := by
  obtain ⟨method, hfound', arity⟩ :=
    (outfitted.of_keeps (unboxing.keeps_of_same same)).exists_equal unboxing.metaType_mem
  exact endAlike_of_refused unboxing same mirrored outfitted.foreign_equal hfound' arity
    (beq_eq_false_iff_ne.mpr refused)

end operators

end Machine

/-- In a world that a started machine comes to without new definitions, a
foreign object ends an operator as its primitive does, from any site and from
none. The exceptions are two methods that foreign objects have: `==` with one
argument compares the references, and `!` is false also for an object that
stands for false. -/
theorem operator_unboxes_of_run {natives : Natives} {o : Options} {config : NativeConfiguration}
    {files : FileTree} {m : Machine} {w : World} (started : Machine.start o config files = .ok m)
    (run : World.Run natives (.fresh m) w)
    (undefined : w.machine.registry.epoch = m.registry.epoch) {f : ForeignId} {u : Value}
    {m' : Machine}
    (unboxed : (w.machine.primitiveKind f).2.unbox (w.machine.primitiveKind f).1 f
      = some (.ok u, m'))
    {name : String} {args : List Value}
    (operator : OutgoingCall.classify w.machine.registry name args = .operator) :
    (∀ site ∈ w.sites, withoutSite (site.call natives w.machine ⟨.foreign f, name, args⟩)
        = w.machine.send natives ⟨.foreign f, name, args⟩)
    ∧ (¬ (name = "==" ∧ args.length = 1) → ¬ (name = "!" ∧ args = [] ∧ u = .bool false) →
        Machine.EndAlike (w.machine.send natives ⟨.foreign f, name, args⟩)
          (m'.send natives ⟨u, name, args⟩))
    ∧ (∀ x, name = "==" → args = [x] → w.machine.send natives ⟨.foreign f, name, args⟩
        = some (.ok (.bool ((Value.foreign f).identical x)), w.machine))
    ∧ (name = "!" → args = [] → w.machine.send natives ⟨.foreign f, name, args⟩
        = some (.ok (.bool false), w.machine)) := by
  have hstart := World.coherent_fresh (Machine.launched_start started).equipped
  have hcoherent := hstart.run run
  have mirrored := (World.launched_of_run started run).reachable.mirrored
  have outfitted : w.machine.registry.Outfitted := by
    obtain ⟨core, hcore, keeps⟩ := Machine.keeps_start started
    have hgrows := (hstart.evolves_run run).grows hstart.equipped.wellFormed
    exact ⟨core, hcore, keeps.trans (.of_epoch hgrows undefined)⟩
  obtain ⟨asked, same, hunboxing⟩ := Machine.exists_asked_of_unbox unboxed
  refine ⟨fun site mem => ?_, fun notEqual notNegation => ?_, fun x heq hargs => ?_,
    fun heq hargs => ?_⟩
  · exact (DispatchSite.agrees_callWithin _ _ hcoherent.equipped
      (hcoherent.sites site mem)).withoutSite_eq
  · by_cases hneg : name = "!"
    · subst hneg
      exact Machine.endAlike_negation hunboxing same outfitted mirrored fun h => notNegation ⟨rfl, h⟩
    · by_cases heq : name = "=="
      · subst heq
        exact Machine.endAlike_equal hunboxing same outfitted mirrored fun h => notEqual ⟨rfl, h⟩
      · exact Machine.endAlike_of_lacking hunboxing same outfitted unboxed operator
          (outfitted.foreign_lacks (Machine.isOperator_of_classify operator) hneg heq)
  · subst heq hargs
    exact Machine.send_primitive _ outfitted.foreign_equal rfl rfl rfl
  · subst heq hargs
    exact Machine.send_primitive _ (outfitted.negation List.mem_cons_self) rfl rfl rfl

-- ============================================================= an object for five

/-- A message that changes nothing in the object is recorded, and that is all. -/
theorem Machine.deliver_of_receive {m : Machine} {f : ForeignId} {message : Message}
    (kept : ((m.foreigner f).receive (m.foreigner f).members message).2
      = (m.foreigner f).members) :
    m.deliver f message = (((m.foreigner f).receive (m.foreigner f).members message).1,
      { m with delivered := m.delivered ++ [(f, message)] }) := by
  have hsame : m.foreigners.modify f.index
      (fun o => { o with members := (m.foreigner f).members }) = m.foreigners := by
    refine List.ext_getElem? fun i => ?_
    rw [List.getElem?_modify]
    split
    · next h =>
      subst h
      cases ho : m.foreigners[f.index]? with
      | none => rfl
      | some o =>
          have hforeigner : m.foreigner f = o := by
            unfold foreigner
            rw [List.getD_eq_getElem?_getD, ho]
            rfl
          rw [hforeigner]
          rfl
    · exact Option.map_id' ..
  unfold deliver
  dsimp only
  rw [kept, hsame]

def five : Fixnum := ⟨5, by decide, by decide⟩

/-- A foreign object that stands for the integer 5. -/
def foreignFive : ForeignObject where
  members := .empty
  receive stored message :=
    match message with
    | .isNumber => (true, stored)
    | .fitsInInt => (true, stored)
    | .asInt => (.ok five, stored)
    | message => (message.unknown, stored)

/-- A world that has met the object, with a site. -/
def worldOfFive (m : Machine) : World := ⟨(m.meet foreignFive).2, [.fresh .standard], []⟩

theorem run_worldOfFive (natives : Natives) (m : Machine) :
    World.Run natives (.fresh m) (worldOfFive m) :=
  .step (.step (.refl _) (.openSite _ .standard)) (.disturb _ (m.meet foreignFive).2 rfl)

/-- What the object is sent before an operator goes to its number. -/
def questionsToFive : List Message := [.isBoolean, .isString, .isNumber, .fitsInInt, .asInt]

/-- The machine of that world once the object was sent some messages. -/
def askedFive (m : Machine) (messages : List Message) : Machine :=
  { (worldOfFive m).machine with
    delivered := m.delivered ++ messages.map fun message => (⟨m.foreigners.length⟩, message) }

theorem askedFive_nil (m : Machine) : (worldOfFive m).machine = askedFive m [] := by
  unfold askedFive
  rw [List.map_nil, List.append_nil]
  rfl

/-- The object answers, and the record of the messages grows. -/
theorem deliver_askedFive (m : Machine) (messages : List Message) (message : Message) :
    (askedFive m messages).deliver ⟨m.foreigners.length⟩ message
      = ((foreignFive.receive .empty message).1, askedFive m (messages ++ [message])) := by
  have hhere : (askedFive m messages).foreigner ⟨m.foreigners.length⟩ = foreignFive :=
    getD_concat_self ..
  rw [Machine.deliver_of_receive, hhere]
  · unfold askedFive
    rw [List.map_append, ← List.append_assoc]
    rfl
  · rw [hhere]
    cases message <;> rfl

theorem unbox_worldOfFive (m : Machine) :
    ((worldOfFive m).machine.primitiveKind ⟨m.foreigners.length⟩).2.unbox
        ((worldOfFive m).machine.primitiveKind ⟨m.foreigners.length⟩).1 ⟨m.foreigners.length⟩
      = some (.ok (.fixnum five), askedFive m questionsToFive) := by
  have hkind : (askedFive m []).primitiveKind ⟨m.foreigners.length⟩
      = (.int, askedFive m [.isBoolean, .isString, .isNumber, .fitsInInt]) := by
    unfold Machine.primitiveKind
    simp only [deliver_askedFive]
    rfl
  rw [askedFive_nil, hkind]
  unfold Machine.unbox
  dsimp only
  rw [deliver_askedFive]
  rfl

/-- An operator is classified as one, if no earlier rule has its name. -/
theorem classify_eq_operator (r : Registry) {name : String} (args : List Value)
    (other : name ∉ ["[]", "call", "new", "__send__"])
    (operator : OutgoingCall.isOperator name = true) :
    OutgoingCall.classify r name args = .operator := by
  simp only [List.mem_cons, List.not_mem_nil, or_false, not_or] at other
  obtain ⟨hindexing, hcall, hnew, hsend⟩ := other
  have hnone : OutgoingCall.ofIndexing? r name args = none := by
    unfold OutgoingCall.ofIndexing?
    split
    · rw [if_neg hindexing]
    · rfl
  unfold OutgoingCall.classify
  rw [hnone]
  dsimp only
  rw [if_neg hcall, if_neg hnew, if_neg fun h => hsend h.1, if_pos operator]

/-- The object for 5 adds as 5 does. -/
theorem operator_unboxes_of_five : ∃ m, Machine.start .standard .empty ⟨.emptyDirectory, []⟩ = .ok m
    ∧ World.Run .none (.fresh m) (worldOfFive m)
    ∧ Machine.EndAlike
        ((worldOfFive m).machine.send .none
          ⟨.foreign ⟨m.foreigners.length⟩, "+", [.fixnum five]⟩)
        ((askedFive m questionsToFive).send .none ⟨.fixnum five, "+", [.fixnum five]⟩) := by
  obtain ⟨m, hm⟩ := Machine.exists_start
  have hrun := run_worldOfFive .none m
  have hclass : OutgoingCall.classify (worldOfFive m).machine.registry "+" [.fixnum five]
      = .operator := classify_eq_operator _ _ (by decide) (by decide +kernel)
  obtain ⟨-, hagree, -⟩ := operator_unboxes_of_run hm hrun rfl (unbox_worldOfFive m) hclass
  exact ⟨m, hm, hrun, hagree (by decide) (by decide)⟩

/-- The boolean that is answered. -/
def Outcome.bool? : Outcome → Option Bool
  | .ok (.bool b) => some b
  | _ => none

/-- The object for 5 is not equal to 5, and 5 is. -/
theorem not_endAlike_equal_five : ∃ m,
    Machine.start .standard .empty ⟨.emptyDirectory, []⟩ = .ok m
      ∧ World.Run .none (.fresh m) (worldOfFive m)
      ∧ ((worldOfFive m).machine.primitiveKind ⟨m.foreigners.length⟩).2.unbox
          ((worldOfFive m).machine.primitiveKind ⟨m.foreigners.length⟩).1 ⟨m.foreigners.length⟩
        = some (.ok (.fixnum five), askedFive m questionsToFive)
      ∧ OutgoingCall.classify (worldOfFive m).machine.registry "==" [.fixnum five] = .operator
      ∧ ¬ Machine.EndAlike
          ((worldOfFive m).machine.send .none
            ⟨.foreign ⟨m.foreigners.length⟩, "==", [.fixnum five]⟩)
          ((askedFive m questionsToFive).send .none ⟨.fixnum five, "==", [.fixnum five]⟩) := by
  have hanswers : (match Machine.start .standard .empty ⟨.emptyDirectory, []⟩ with
      | .ok m =>
        decide (((worldOfFive m).machine.send .none
              ⟨.foreign ⟨m.foreigners.length⟩, "==", [.fixnum five]⟩).map (Outcome.bool? ·.1)
            = some (some false)
          ∧ ((askedFive m questionsToFive).send .none
              ⟨.fixnum five, "==", [.fixnum five]⟩).map (Outcome.bool? ·.1) = some (some true))
      | .error _ => false) = true := by
    decide +kernel
  obtain ⟨m, hm⟩ := Machine.exists_start
  rw [hm, decide_eq_true_eq] at hanswers
  refine ⟨m, hm, run_worldOfFive .none m, unbox_worldOfFive m,
    classify_eq_operator _ _ (by decide) (by decide +kernel), ?_⟩
  rintro ⟨outcome, m₁, m₂, hforeign, hguest, -⟩
  rw [hforeign, hguest] at hanswers
  have hsame : some (some false) = some (some true) := hanswers.1.symm.trans hanswers.2
  cases hsame

end ObjectModel
