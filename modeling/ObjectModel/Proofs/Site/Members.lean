/-
Assignments to the members of foreign objects.

A send of `k=` with one argument delivers one write of a member, from whatever
site, and a read of that member then finds what was written. The member is `k`
without the equals signs at its end, so it is `k` itself unless `k` ends in one
(`assignedMember_eq_iff`): names that end in an equals sign cannot be assigned
to, and two of them may share the member that is written instead.
-/
import ObjectModel.Foreign.Script
import ObjectModel.Proofs.Site.Run

namespace ObjectModel

-- ==================================================================== the names

namespace OutgoingCall

/-- An assignment writes the name before its equals sign, without further
equals signs at the end. -/
theorem assignedMember_append (k : String) : assignedMember (k ++ "=") = assignedMember k := by
  unfold assignedMember
  rw [String.toList_append, show "=".toList = ['='] from rfl, List.reverse_append,
    List.reverse_singleton, List.singleton_append, List.dropWhile_cons_of_pos (by decide)]

theorem isAssignment_append (k : String) : isAssignment (k ++ "=") = true := by
  unfold isAssignment
  rw [String.toList_append, show "=".toList = ['='] from rfl, List.getLast?_concat]
  rfl

/-- The member is the name itself exactly if that does not end in an equals
sign. -/
theorem assignedMember_eq_iff (k : String) : assignedMember k = k ↔ isAssignment k = false := by
  unfold assignedMember isAssignment
  rw [← String.toList_inj, String.toList_ofList, List.reverse_eq_iff, ← List.head?_reverse]
  cases k.toList.reverse with
  | nil => exact ⟨fun _ => rfl, fun _ => rfl⟩
  | cons c rest =>
      by_cases hc : c = '='
      · subst hc
        rw [List.dropWhile_cons_of_pos (by decide)]
        have hle := (List.dropWhile_suffix (l := rest) (· == '=')).length_le
        refine ⟨fun h => ?_, nofun⟩
        have hlength := congrArg List.length h
        rw [List.length_cons] at hlength
        omega
      · rw [List.dropWhile_cons_of_neg (by simpa using hc)]
        exact ⟨fun _ => by simpa using hc, fun _ => rfl⟩

/-- The name starts with a letter. -/
def startsWithLetter (name : String) : Bool := name.toList.head?.any Text.alphabetic.contains

/-- An assignment of one argument is a write. -/
theorem classify_assignment (r : Registry) {k : String} (letter : startsWithLetter k = true)
    (v : Value) : classify r (k ++ "=") [v] = .writeMember := by
  have hne : ∀ {other : String}, isAssignment other = false → k ++ "=" ≠ other := by
    rintro _ hother rfl
    rw [isAssignment_append] at hother
    cases hother
  have hoperator : isOperator (k ++ "=") = false := by
    unfold isOperator startsWithLetter at *
    rw [String.toList_append]
    cases hchars : k.toList with
    | nil =>
        rw [hchars] at letter
        cases letter
    | cons c rest =>
        rw [hchars] at letter
        simpa using letter
  unfold classify ofIndexing?
  rw [if_neg (hne (by decide))]
  dsimp only
  rw [if_neg (hne (by decide)), if_neg (hne (by decide)), if_neg fun h => hne (by decide) h.1,
    hoperator, isAssignment_append]
  rfl

end OutgoingCall

-- ================================================================== the objects

/-- An object that stores members: a write succeeds, a read of the member
answers what was written, and reads of other members answer as before. -/
structure ForeignObject.StoresMembers (o : ForeignObject) : Prop where
  writes : ∀ stored name v, (o.receive stored (.writeMember name v)).1 = .ok ()
  reads : ∀ stored name v,
    (o.receive (o.receive stored (.writeMember name v)).2 (.readMember name)).1 = .ok v
  others : ∀ stored {name} v {other}, other ≠ name →
    (o.receive (o.receive stored (.writeMember name v)).2 (.readMember other)).1
      = (o.receive stored (.readMember other)).1

/-- A scripted object stores members, if it has members and neither writing nor
reading them is made to fail. -/
theorem ForeignScript.storesMembers {s : ForeignScript} (members : s.members.isSome = true)
    (writes : s.faults.get? "writeMember" = none) (reads : s.faults.get? "readMember" = none) :
    s.object.StoresMembers := by
  have hsome : s.members.isNone = false := by
    rw [Option.isNone_eq_false_iff]
    exact members
  have hwrite : ∀ stored name v,
      s.object.receive stored (.writeMember name v) = (.ok (), stored.set name v) := by
    intro stored name v
    unfold object unlessFaulty writeMember
    dsimp only
    rw [show (Message.writeMember name v).selector = "writeMember" from rfl, writes, hsome]
    rfl
  have hread : ∀ stored name, (s.object.receive stored (.readMember name)).1
      = (stored.get? name).elim (.error (.unknownIdentifier name)) .ok := by
    intro stored name
    unfold object unlessFaulty readMember
    dsimp only
    rw [show (Message.readMember name).selector = "readMember" from rfl, reads, hsome]
    cases stored.get? name with
    | none => rfl
    | some v => rfl
  refine ⟨fun stored name v => ?_, fun stored name v => ?_,
    fun stored {name} v {other} ne => ?_⟩
  · rw [hwrite]
  · rw [hread, hwrite, Bindings.get?_set_self]
    rfl
  · rw [hread, hread, hwrite, Bindings.get?_set_of_ne ne]

-- ==================================================================== the sends

namespace Machine

variable {natives : Natives} {m : Machine} {f : ForeignId}

/-- The machine after a write of a member. -/
def written (m : Machine) (f : ForeignId) (member : String) (v : Value) : Machine :=
  (m.deliver f (.writeMember member v)).2

/-- An object that stores members is there. -/
theorem lt_of_storesMembers (stores : (m.foreigner f).StoresMembers) :
    f.index < m.foreigners.length := by
  by_contra hge
  have hblank : m.foreigner f = ForeignObject.opaqueObject := by
    unfold foreigner
    rw [List.getD_eq_getElem?_getD, List.getElem?_eq_none (Nat.le_of_not_lt hge)]
    rfl
  have hwrites := stores.writes .empty "" .nil
  rw [hblank] at hwrites
  cases hwrites

/-- A write changes what the object has stored. -/
theorem foreigner_written (here : f.index < m.foreigners.length) (member : String) (v : Value) :
    (m.written f member v).foreigner f = { m.foreigner f with
      members := ((m.foreigner f).receive (m.foreigner f).members (.writeMember member v)).2 } := by
  change (m.foreigners.modify f.index _).getD f.index default = _
  rw [getD_modify, if_pos ⟨rfl, here⟩]
  rfl

/-- A send of an assignment writes one member and answers the value. -/
theorem sendForeign_assignment {k : String} (letter : OutgoingCall.startsWithLetter k = true)
    (stores : (m.foreigner f).StoresMembers) (v : Value) :
    m.sendForeign natives f (k ++ "=") [v]
      = some (.ok v, m.written f (OutgoingCall.assignedMember k) v) := by
  have hdeliver : m.deliver f (.writeMember (OutgoingCall.assignedMember k) v)
      = (.ok (), m.written f (OutgoingCall.assignedMember k) v) :=
    Prod.ext (stores.writes (m.foreigner f).members (OutgoingCall.assignedMember k) v) rfl
  unfold sendForeign performForeign
  rw [OutgoingCall.classify_assignment m.registry letter v]
  unfold performOutgoing
  dsimp only
  rw [OutgoingCall.assignedMember_append, List.headD_cons, hdeliver]
  rfl

/-- Indexing by a symbol or a string reads the member that it names. -/
theorem sendForeign_indexing {key : Value} {member : String} (names : m.text? key = some member) :
    m.sendForeign natives f "[]" [key] = some (translate (m.deliver f (.readMember member))) := by
  have hcall : OutgoingCall.classify m.registry "[]" [key] = .readMember := by
    have hindexing : OutgoingCall.ofIndexing? m.registry "[]" [key] = some .readMember := by
      cases key with
      | symbol s => rfl
      | object o =>
          have htext : m.registry.textOf? (.object o) = some member := names
          unfold OutgoingCall.ofIndexing?
          dsimp only
          rw [if_pos rfl, htext]
          rfl
      | nil | bool | fixnum | bignum | float | foreign => cases names
    unfold OutgoingCall.classify
    rw [hindexing]
  have hname : m.nameOf key = .ok member := by
    unfold nameOf
    rw [names]
  unfold sendForeign performForeign
  rw [hcall]
  unfold performOutgoing
  dsimp only
  rw [List.headD_cons, hname]
  rfl

end Machine

-- =================================================================== the worlds

namespace World

variable {natives : Natives} {w w' : World} {f : ForeignId}

/-- What a message to a foreign object may end in: the message is sent without
memory, or from a foreign site. -/
inductive Ends (natives : Natives) (w : World) (f : ForeignId) (name : String)
    (args : List Value) : Option (Outcome × Machine) → Prop
  | uncached : Ends natives w f name args (w.machine.sendForeign natives f name args)
  | fromSite {site : ForeignSite} (mem : site ∈ w.foreignSites) :
      Ends natives w f name args (withoutSite (site.call natives w.machine f name args))

/-- All ways to send a message end alike. -/
theorem Coherent.ends_eq (coherent : w.Coherent) {name : String} {args : List Value}
    {ended : Option (Outcome × Machine)} (ends : w.Ends natives f name args ended) :
    ended = w.machine.sendForeign natives f name args := by
  cases ends with
  | uncached => rfl
  | fromSite mem =>
      exact (ForeignSite.agrees_callWith (DispatchSite.agrees_callWithin _) coherent.equipped
        (coherent.foreignSites _ mem) f name args).withoutSite_eq

/-- Indexing by any name of a member reads the member and answers this value. -/
def Answers (natives : Natives) (w : World) (f : ForeignId) (member : String) (v : Value) :
    Prop :=
  ∀ {key : Value} {ended : Option (Outcome × Machine)}, w.machine.text? key = some member →
    w.Ends natives f "[]" [key] ended →
      ended = some (.ok v, (w.machine.deliver f (.readMember member)).2)

/-- Sends of `k=` with a value write a member, and no other. -/
structure Assigns (natives : Natives) (w : World) (f : ForeignId) (k : String) (v : Value)
    (member : String) : Prop where
  ends_eq : ∀ {ended}, w.Ends natives f (k ++ "=") [v] ended →
    ended = some (.ok v, w.machine.written f member v)
  delivered_eq : (w.machine.written f member v).delivered
    = w.machine.delivered ++ [(f, .writeMember member v)]
  /-- The member is what was written, as long as the object stays as it is then. -/
  answers : ∀ {w' : World}, Run natives w w' →
    w'.machine.foreigner f = (w.machine.written f member v).foreigner f →
      w'.Answers natives f member v
  /-- Other members are what they were. -/
  others : ∀ {other : String} {u : Value}, other ≠ member →
    (w.machine.deliver f (.readMember other)).1 = .ok u → ∀ {w' : World}, Run natives w w' →
      w'.machine.foreigner f = (w.machine.written f member v).foreigner f →
        w'.Answers natives f other u

/-- A member that the object answers to is what indexing answers. -/
theorem Coherent.answers (coherent : w.Coherent) {member : String} {v : Value}
    (reply : ((w.machine.foreigner f).receive (w.machine.foreigner f).members
      (.readMember member)).1 = .ok v) : w.Answers natives f member v := by
  intro key ended names ends
  have hdeliver : w.machine.deliver f (.readMember member)
      = (.ok v, (w.machine.deliver f (.readMember member)).2) := Prod.ext reply rfl
  rw [coherent.ends_eq ends, Machine.sendForeign_indexing names, hdeliver]
  rfl

/-- An assignment writes the member without the equals signs at the end of its
name. -/
theorem Coherent.assigns (coherent : w.Coherent) {k : String}
    (letter : OutgoingCall.startsWithLetter k = true)
    (stores : (w.machine.foreigner f).StoresMembers) (v : Value) :
    w.Assigns natives f k v (OutgoingCall.assignedMember k) where
  ends_eq ends := (coherent.ends_eq ends).trans (Machine.sendForeign_assignment letter stores v)
  delivered_eq := rfl
  answers run same := by
    refine (coherent.run run).answers ?_
    rw [same, Machine.foreigner_written (Machine.lt_of_storesMembers stores)]
    exact stores.reads _ _ v
  others ne reply _ run same := by
    refine (coherent.run run).answers ?_
    rw [same, Machine.foreigner_written (Machine.lt_of_storesMembers stores)]
    exact (stores.others _ v ne).trans reply

end World

/-- In every world that a started machine comes to, assignments to a foreign
object that stores members write the member without the equals signs at the end
of its name, which is the member of that name if it ends in none. -/
theorem assigns_of_run {natives : Natives} {o : Options} {config : NativeConfiguration}
    {files : FileTree} {m : Machine} {w : World} (started : Machine.start o config files = .ok m)
    (run : World.Run natives (.fresh m) w) {f : ForeignId} {k : String}
    (letter : OutgoingCall.startsWithLetter k = true)
    (stores : (w.machine.foreigner f).StoresMembers) (v : Value) :
    w.Assigns natives f k v (OutgoingCall.assignedMember k)
      ∧ (OutgoingCall.assignedMember k = k ↔ OutgoingCall.isAssignment k = false)
      ∧ ∀ k', OutgoingCall.isAssignment k = false → OutgoingCall.isAssignment k' = false →
          k' ≠ k → OutgoingCall.assignedMember k' ≠ OutgoingCall.assignedMember k := by
  have hcoherent : w.Coherent :=
    (World.coherent_fresh (Machine.launched_start started).equipped).run run
  refine ⟨hcoherent.assigns letter stores v, OutgoingCall.assignedMember_eq_iff k, ?_⟩
  intro k' hk hk' ne
  rw [(OutgoingCall.assignedMember_eq_iff k).mpr hk,
    (OutgoingCall.assignedMember_eq_iff k').mpr hk']
  exact ne

-- ============================================================ an object of members

/-- An object that has members, none of them set. -/
def recordScript : ForeignScript where
  array := none
  members := some .empty
  invocable := none
  execute := none
  instantiate := none
  arity := none
  isBoolean := false
  isString := false
  isNumber := false
  fitsInInt := false
  fitsInLong := false
  fitsInDouble := false
  asBoolean := none
  asString := none
  asInt := none
  asLong := none
  asDouble := none
  faults := .empty

/-- A world that has met the object, with a foreign site. -/
def worldOfRecord (m : Machine) : World :=
  ⟨(m.meet recordScript.object).2, [], [.fresh .standard]⟩

theorem run_worldOfRecord (natives : Natives) (m : Machine) :
    World.Run natives (.fresh m) (worldOfRecord m) :=
  .step (.step (.refl _) (.openForeignSite _ .standard))
    (.disturb _ (m.meet recordScript.object).2 rfl)

theorem storesMembers_worldOfRecord (m : Machine) :
    ((worldOfRecord m).machine.foreigner ⟨m.foreigners.length⟩).StoresMembers := by
  have hmet : (worldOfRecord m).machine.foreigner ⟨m.foreigners.length⟩ = recordScript.object :=
    getD_concat_self ..
  rw [hmet]
  exact ForeignScript.storesMembers rfl rfl rfl

/-- What a site remembers of an assignment. -/
def assignmentBranch (k : String) : ForeignBranch := ⟨k ++ "=", .writeMember, .none⟩

/-- A new site remembers the assignment that it is called with. -/
theorem ForeignSite.call_fresh_assignment (natives : Natives) (m : Machine) (f : ForeignId)
    {k : String} (letter : OutgoingCall.startsWithLetter k = true) (v : Value) :
    (ForeignSite.fresh .standard).call natives m f (k ++ "=") [v]
      = (m.sendForeign natives f (k ++ "=") [v]).map fun ended =>
          (ended.1, ended.2, ⟨.standard, ⟨8, [assignmentBranch k], false⟩⟩) := by
  have hsame : (assignmentBranch k).same (assignmentBranch k) = true := by
    unfold ForeignBranch.same
    rw [beq_self_eq_true, beq_self_eq_true]
    rfl
  have hupdate : (⟨.standard, ⟨8, [assignmentBranch k], false⟩⟩ : ForeignSite).update
      (assignmentBranch k) = ⟨.standard, ⟨8, [assignmentBranch k], false⟩⟩ := by
    unfold update GuardChain.revise
    rw [List.map_singleton, if_pos hsame]
  unfold call callWith Machine.sendForeign Machine.performForeign
  rw [OutgoingCall.classify_assignment m.registry letter v]
  change ((assignmentBranch k).perform natives _ _ m f [v]).map (fun ended =>
    (ended.1, ended.2.1, (⟨.standard, ⟨8, [assignmentBranch k], false⟩⟩ : ForeignSite).update
      ended.2.2)) = _
  unfold ForeignBranch.perform
  rw [show (assignmentBranch k).nested = .none from rfl]
  dsimp only
  rw [Option.map_map]
  refine congrArg (Option.map · _) (funext fun ended => ?_)
  exact congrArg (fun site => (ended.1, ended.2, site)) hupdate

/-- A member is assigned again from the site that has assigned it before. -/
theorem assigns_after_assignment : ∃ m w,
    Machine.start .standard .empty ⟨.emptyDirectory, []⟩ = .ok m
      ∧ World.Run .none (.fresh m) w
      ∧ w.foreignSites.map ForeignSite.remembered = [[("k=", .writeMember)]]
      ∧ OutgoingCall.startsWithLetter "k" = true
      ∧ (w.machine.foreigner ⟨m.foreigners.length⟩).StoresMembers
      ∧ w.Assigns .none ⟨m.foreigners.length⟩ "k" (.bool true) "k" := by
  obtain ⟨m, hm⟩ := Machine.exists_start
  have letter : OutgoingCall.startsWithLetter "k" = true := by decide +kernel
  have hstores := storesMembers_worldOfRecord m
  have hcall := ForeignSite.call_fresh_assignment .none (worldOfRecord m).machine
    ⟨m.foreigners.length⟩ letter .nil
  rw [Machine.sendForeign_assignment letter hstores] at hcall
  have hrun := (run_worldOfRecord .none m).step (.callForeign (i := 0) rfl hcall)
  have hagain : ((((worldOfRecord m).machine.written ⟨m.foreigners.length⟩
      (OutgoingCall.assignedMember "k") .nil)).foreigner ⟨m.foreigners.length⟩).StoresMembers := by
    rw [Machine.foreigner_written (Machine.lt_of_storesMembers hstores)]
    exact ⟨hstores.writes, hstores.reads, hstores.others⟩
  obtain ⟨hassigns, hmember, -⟩ := assigns_of_run hm hrun letter hagain (.bool true)
  rw [hmember.mpr rfl] at hassigns
  exact ⟨m, _, hm, hrun, rfl, letter, hagain, hassigns⟩

/-- Assignments write one member only. -/
theorem World.Assigns.member_eq {natives : Natives} {w : World} {f : ForeignId} {k : String}
    {v : Value} {member member' : String} (assigns : w.Assigns natives f k v member)
    (assigns' : w.Assigns natives f k v member') : member = member' := by
  have hended := (assigns.ends_eq .uncached).symm.trans (assigns'.ends_eq .uncached)
  have hmachine := congrArg (fun ended => ended.map (·.2.delivered)) hended
  dsimp only [Option.map] at hmachine
  rw [assigns.delivered_eq, assigns'.delivered_eq, Option.some.injEq,
    List.append_cancel_left_eq] at hmachine
  cases hmachine
  rfl

/-- A name that ends in an equals sign cannot be assigned to: the member without
it is written. -/
theorem not_assigns_of_equalsSign : ∃ m,
    Machine.start .standard .empty ⟨.emptyDirectory, []⟩ = .ok m
      ∧ World.Run .none (.fresh m) (worldOfRecord m)
      ∧ OutgoingCall.startsWithLetter "k=" = true
      ∧ ((worldOfRecord m).machine.foreigner ⟨m.foreigners.length⟩).StoresMembers
      ∧ ∀ v, ¬ (worldOfRecord m).Assigns .none ⟨m.foreigners.length⟩ "k=" v "k="
        ∧ (worldOfRecord m).Assigns .none ⟨m.foreigners.length⟩ "k=" v "k"
        ∧ (worldOfRecord m).Assigns .none ⟨m.foreigners.length⟩ "k" v "k" := by
  obtain ⟨m, hm⟩ := Machine.exists_start
  have letter : OutgoingCall.startsWithLetter "k=" = true := by decide +kernel
  have hrun := run_worldOfRecord .none m
  have hstores := storesMembers_worldOfRecord m
  have hcoherent : (worldOfRecord m).Coherent :=
    (World.coherent_fresh (Machine.launched_start hm).equipped).run hrun
  refine ⟨m, hm, hrun, letter, hstores, fun v => ?_⟩
  have hassigns : (worldOfRecord m).Assigns .none ⟨m.foreigners.length⟩ "k=" v "k" :=
    hcoherent.assigns letter hstores v
  refine ⟨fun assigns => ?_, hassigns, hcoherent.assigns (by decide +kernel) hstores v⟩
  exact absurd (assigns.member_eq hassigns) (by decide)

end ObjectModel
