/-
Interning is a stable bijection.

Both tables give each name a place, in the order in which names come first, and
keep it in two forms. A symbol table has the list of its texts, which leads from
a place to a name, and a map from texts to symbols, which leads back; a table of
layouts has a map, and a counter that says which place is next. What is proved
first is that the two forms agree (`Records`): after any calls a name finds what
its place among the first occurrences says, and one more call keeps it so.
Everything else is read off the list of first occurrences, which holds each name
once and only ever grows at its end.

Symbols and layouts are numbered with 32 bits. A place is its number, and
different places have different numbers, as long as there are fewer names than
numbers.
-/
import ObjectModel.Proofs.Distinct
import ObjectModel.Proofs.Places
import ObjectModel.Shape
import ObjectModel.Symbol

namespace ObjectModel

-- ==================================================================== symbols

theorem Symbol.index_ofPlace {place : Nat} (lt : place < 4294967296) :
    (Symbol.ofPlace place).index = place :=
  Nat.mod_eq_of_lt lt

namespace SymbolTable

/-- A call that may be made of a table. -/
inductive Call where
  | intern (text : String)
  | lookup (text : String)
deriving DecidableEq

/-- The text that a call interns. -/
def Call.interned? : Call → Option String
  | .intern text => some text
  | .lookup _ => none

/-- What a call answers, and the table that it leaves. -/
def answer (t : SymbolTable) : Call → Option Symbol × SymbolTable
  | .intern text => (some (t.intern text).1, (t.intern text).2)
  | .lookup text => (t.lookup? text, t)

/-- The table after some calls. -/
def run (t : SymbolTable) (calls : List Call) : SymbolTable :=
  calls.foldl (fun t call => (t.answer call).2) t

/-- The texts that calls intern, in the order of first interning. -/
def namesOf (calls : List Call) : List String := firstSeen (calls.filterMap Call.interned?)

/-- A call stands at a place of a list of calls, and this is its answer there if
the calls are made of an empty table. -/
structure Answered (calls : List Call) (i : Nat) (call : Call) (found : Option Symbol) : Prop where
  call_eq : calls[i]? = some call
  answer_eq : ((empty.run (calls.take i)).answer call).1 = found

/-- What calls on an empty table answer, and what the table knows after them. -/
structure Interns (calls : List Call) : Prop where
  /-- An interned text gets the symbol of its place in the order of first
  interning. -/
  interned : ∀ {i : Nat} {text : String}, calls[i]? = some (.intern text) →
    ∃ s, Answered calls i (.intern text) (some s) ∧ (namesOf calls)[s.index]? = some text
  eq_iff : ∀ {i j : Nat} {a b : String} {s u : Symbol}, Answered calls i (.intern a) (some s) →
    Answered calls j (.intern b) (some u) → (s = u ↔ a = b)
  /-- A symbol has its text from then on. -/
  named : ∀ {i : Nat} {text : String} {s : Symbol}, Answered calls i (.intern text) (some s) →
    ∀ k, i < k → (empty.run (calls.take k)).name? s = some text
  /-- The symbols that were handed out are those below the size of the table. -/
  index_iff : ∀ n : Nat, n < (empty.run calls).size
    ↔ ∃ i text, Answered calls i (.intern text) (some ⟨n⟩)
  size_eq : (empty.run calls).size = (namesOf calls).length
  name?_eq : ∀ s : Symbol, (empty.run calls).name? s = (namesOf calls)[s.index]?
  /-- A lookup finds what was handed out before, and nothing else. -/
  looked : ∀ {i : Nat} {text : String} {found : Option Symbol},
    Answered calls i (.lookup text) found → ∀ s, found = some s
      ↔ ∃ j, j < i ∧ Answered calls j (.intern text) (some s)
  /-- Without its lookups a run leaves the same table. -/
  unchanged : empty.run (calls.filter (·.interned?.isSome)) = empty.run calls

-- -------------------------------------------------------------- the two forms

/-- The list holds the first occurrences of some texts, and the map leads each of
them to the symbol of its place. -/
structure Records (t : SymbolTable) (texts : List String) : Prop where
  texts_eq : t.texts = firstSeen texts
  lookup?_iff : ∀ {text : String} {s : Symbol},
    t.lookup? text = some s ↔ ∃ p, (firstSeen texts)[p]? = some text ∧ s = .ofPlace p

variable {t : SymbolTable} {texts : List String} {text : String}

theorem records_empty : Records empty [] where
  texts_eq := rfl
  lookup?_iff := by simp [empty, lookup?, firstSeen]

/-- The texts that are found are those that were interned. -/
theorem Records.isSome_lookup? (records : Records t texts) :
    (t.lookup? text).isSome ↔ text ∈ texts := by
  rw [Option.isSome_iff_exists]
  constructor
  · intro h
    obtain ⟨s, found⟩ := h
    obtain ⟨p, place, -⟩ := records.lookup?_iff.mp found
    exact mem_of_place place
  · intro mem
    obtain ⟨p, place⟩ := exists_place mem
    exact ⟨_, records.lookup?_iff.mpr ⟨p, place, rfl⟩⟩

/-- A new text goes to the end of the list, and the map leads it there. -/
theorem Records.add (records : Records t texts) (fresh : text ∉ texts) :
    Records ⟨t.texts ++ [text], t.mappings.set text (.ofPlace t.texts.length)⟩
      (texts ++ [text]) where
  texts_eq := by rw [firstSeen_concat_of_notMem fresh, records.texts_eq]
  lookup?_iff := by
    intro other s
    unfold lookup?
    dsimp only
    rw [firstSeen_concat_of_notMem fresh, records.texts_eq]
    by_cases hother : other = text
    · subst hother
      have hplace : (firstSeen texts ++ [other])[(firstSeen texts).length]? = some other :=
        List.getElem?_concat_length
      rw [Bindings.get?_set_self, Option.some_inj]
      constructor
      · intro h
        exact ⟨_, hplace, h.symm⟩
      · intro h
        obtain ⟨p, place, hs⟩ := h
        rw [← firstSeen_concat_of_notMem fresh] at place hplace
        rw [hs, (place_eq_iff place hplace).mpr rfl]
    · rw [Bindings.get?_set_of_ne hother]
      refine records.lookup?_iff.trans (exists_congr fun p => and_congr_left fun _ => ?_)
      constructor
      · exact getElem?_of_longer (List.prefix_append _ _)
      · intro place
        exact (getElem?_concat_cases place).resolve_right fun h => hother h.2

/-- Interning answers the symbol of the text's place, and the two forms go on
agreeing. -/
theorem Records.intern (records : Records t texts) (text : String) :
    Records (t.intern text).2 (texts ++ [text])
      ∧ ∃ p, (firstSeen (texts ++ [text]))[p]? = some text
        ∧ (t.intern text).1 = .ofPlace p := by
  unfold SymbolTable.intern
  cases found : t.lookup? text with
  | some s =>
      have old : text ∈ texts := records.isSome_lookup?.mp (by rw [found]; rfl)
      rw [firstSeen_concat_of_mem old]
      refine ⟨?_, records.lookup?_iff.mp found⟩
      constructor
      · rw [firstSeen_concat_of_mem old]
        exact records.texts_eq
      · rw [firstSeen_concat_of_mem old]
        exact records.lookup?_iff
  | none =>
      have fresh : text ∉ texts := by
        intro mem
        have hsome := records.isSome_lookup?.mpr mem
        rw [found] at hsome
        cases hsome
      refine ⟨records.add fresh, t.texts.length, ?_, rfl⟩
      rw [firstSeen_concat_of_notMem fresh, records.texts_eq]
      exact List.getElem?_concat_length

/-- The two forms agree after any calls. -/
theorem Records.run (records : Records t texts) (calls : List Call) :
    Records (t.run calls) (texts ++ calls.filterMap Call.interned?) := by
  induction calls generalizing t texts with
  | nil => simpa [SymbolTable.run] using records
  | cons call calls ih =>
      cases call with
      | intern text =>
          have hrun := ih (records.intern text).1
          rw [List.append_assoc] at hrun
          exact hrun
      | lookup text => exact ih records

theorem records_run (calls : List Call) :
    Records (empty.run calls) (calls.filterMap Call.interned?) :=
  records_empty.run calls

-- ---------------------------------------------------------------------- places

variable {calls : List Call} {i k p : Nat}

/-- A text keeps its place as calls go on. -/
theorem place_of_take (place : (namesOf (calls.take k))[p]? = some text) :
    (namesOf calls)[p]? = some text :=
  getElem?_of_longer (prefix_firstSeen ((List.take_prefix k calls).filterMap _)) place

/-- An interned text has its place from then on. -/
theorem place_take (call_eq : calls[i]? = some (.intern text)) (lt : i < k)
    (place : (namesOf calls)[p]? = some text) : (namesOf (calls.take k))[p]? = some text := by
  have mem : text ∈ (calls.take k).filterMap Call.interned? :=
    List.mem_filterMap.mpr ⟨_, mem_take_iff.mpr ⟨i, lt, call_eq⟩, rfl⟩
  obtain ⟨q, hq⟩ := exists_place mem
  rw [(place_eq_iff place (place_of_take hq)).mpr rfl]
  exact hq

/-- An interned text is answered the symbol of its place. -/
theorem Answered.exists_place {found : Option Symbol}
    (answered : Answered calls i (.intern text) found) :
    ∃ p, (namesOf calls)[p]? = some text ∧ found = some (.ofPlace p) := by
  obtain ⟨call_eq, rfl⟩ := answered
  obtain ⟨-, p, place, hsymbol⟩ := (records_run (calls.take i)).intern text
  have htexts : (calls.take i).filterMap Call.interned? ++ [text]
      = (calls.take (i + 1)).filterMap Call.interned? := by
    rw [List.take_add_one, call_eq, List.filterMap_append]
    rfl
  rw [htexts] at place
  exact ⟨p, place_of_take place, congrArg some hsymbol⟩

/-- A text that has a place was interned, and answered the symbol of the place. -/
theorem exists_answered (place : (namesOf (calls.take k))[p]? = some text) :
    ∃ i, i < k ∧ Answered calls i (.intern text) (some (.ofPlace p)) := by
  obtain ⟨call, mem, hcall⟩ := List.mem_filterMap.mp (mem_of_place place)
  obtain ⟨i, lt, call_eq⟩ := mem_take_iff.mp mem
  cases call with
  | lookup other => cases hcall
  | intern other =>
      obtain rfl := Option.some.inj hcall
      have answered : Answered calls i (.intern other) _ := ⟨call_eq, rfl⟩
      obtain ⟨q, hq, hfound⟩ := answered.exists_place
      rw [(place_eq_iff hq (place_of_take place)).mpr rfl] at hfound
      exact ⟨i, lt, call_eq, hfound⟩

-- -------------------------------------------------------------------- symbols

/-- A lookup finds what was handed out before, and nothing else. -/
theorem Answered.looked {found : Option Symbol} (answered : Answered calls i (.lookup text) found)
    (s : Symbol) : found = some s ↔ ∃ j, j < i ∧ Answered calls j (.intern text) (some s) := by
  obtain ⟨-, rfl⟩ := answered
  refine (records_run (calls.take i)).lookup?_iff.trans ?_
  constructor
  · intro h
    obtain ⟨p, place, rfl⟩ := h
    exact exists_answered place
  · intro h
    obtain ⟨j, lt, before⟩ := h
    obtain ⟨p, place, hs⟩ := before.exists_place
    exact ⟨p, place_take before.call_eq lt place, Option.some.inj hs⟩

/-- A lookup leaves the table alone, so a run may do without its lookups. -/
theorem run_filter (t : SymbolTable) (calls : List Call) :
    t.run (calls.filter (·.interned?.isSome)) = t.run calls := by
  induction calls generalizing t with
  | nil => rfl
  | cons call calls ih =>
      cases call with
      | intern text => exact ih _
      | lookup text => exact ih t

theorem size_run (calls : List Call) : (empty.run calls).size = (namesOf calls).length :=
  congrArg List.length (records_run calls).texts_eq

theorem name?_run (calls : List Call) (s : Symbol) :
    (empty.run calls).name? s = (namesOf calls)[s.index]? :=
  congrArg (·[s.index]?) (records_run calls).texts_eq

section few

variable (few : (namesOf calls).length < 4294967296)

include few

/-- With fewer texts than symbols, a symbol is its place. -/
theorem index_of_place (place : (namesOf calls)[p]? = some text) :
    (Symbol.ofPlace p).index = p :=
  Symbol.index_ofPlace (Nat.lt_trans (List.getElem?_eq_some_iff.mp place).1 few)

theorem Answered.eq_iff {j : Nat} {a b : String} {s u : Symbol}
    (first : Answered calls i (.intern a) (some s))
    (second : Answered calls j (.intern b) (some u)) : s = u ↔ a = b := by
  obtain ⟨p, hp, hs⟩ := first.exists_place
  obtain ⟨q, hq, hu⟩ := second.exists_place
  obtain rfl := Option.some.inj hs
  obtain rfl := Option.some.inj hu
  rw [← place_eq_iff hp hq]
  constructor
  · intro h
    rw [← index_of_place few hp, ← index_of_place few hq, h]
  · exact congrArg Symbol.ofPlace

theorem Answered.named {s : Symbol} (answered : Answered calls i (.intern text) (some s))
    (lt : i < k) : (empty.run (calls.take k)).name? s = some text := by
  obtain ⟨p, place, hs⟩ := answered.exists_place
  obtain rfl := Option.some.inj hs
  rw [name?_run, index_of_place few place]
  exact place_take answered.call_eq lt place

theorem lt_size_iff (n : Nat) : n < (empty.run calls).size
    ↔ ∃ i text, Answered calls i (.intern text) (some ⟨n⟩) := by
  rw [size_run]
  constructor
  · intro lt
    have place : (namesOf calls)[n]? = some (namesOf calls)[n] := List.getElem?_eq_getElem lt
    have hn : Symbol.ofPlace n = ⟨n⟩ := congrArg Symbol.mk (index_of_place few place)
    have place' : (namesOf (calls.take calls.length))[n]? = some (namesOf calls)[n] := by
      rw [List.take_length]
      exact place
    obtain ⟨i, -, answered⟩ := exists_answered place'
    rw [hn] at answered
    exact ⟨i, _, answered⟩
  · intro h
    obtain ⟨i, text, answered⟩ := h
    obtain ⟨p, place, hs⟩ := answered.exists_place
    have hn : n = p :=
      (congrArg Symbol.index (Option.some.inj hs)).trans (index_of_place few place)
    rw [hn]
    exact (List.getElem?_eq_some_iff.mp place).1

/-- What interning promises, as long as there are fewer texts than symbols. -/
theorem interns_of_few : Interns calls where
  interned := by
    intro i text call_eq
    have answered : Answered calls i (.intern text) _ := ⟨call_eq, rfl⟩
    obtain ⟨p, place, hfound⟩ := answered.exists_place
    refine ⟨.ofPlace p, ⟨call_eq, hfound⟩, ?_⟩
    rw [index_of_place few place]
    exact place
  eq_iff first second := first.eq_iff few second
  named answered _ lt := answered.named few lt
  index_iff := lt_size_iff few
  size_eq := size_run calls
  name?_eq := name?_run calls
  looked answered := answered.looked
  unchanged := run_filter empty calls

end few

end SymbolTable

-- ==================================================================== layouts

/-- The number of a place. Numbers come round again where 32 bits end. -/
def ShapeId.ofPlace (place : Nat) : ShapeId := ⟨place % 4294967296⟩

namespace ShapeTable

/-- A name, and the fields that its layout is to have if it is new. -/
structure Definition where
  name : String
  fields : List String
deriving DecidableEq

/-- The table after some definitions. -/
def run (t : ShapeTable) (defs : List Definition) : ShapeTable :=
  defs.foldl (fun t d => (t.define d.name d.fields).2) t

/-- The names that are defined, in the order of first definition. -/
def namesOf (defs : List Definition) : List String := firstSeen (defs.map (·.name))

/-- A definition stands at a place of a list of definitions, and this is the shape
that it answers there if the definitions are made in an empty table. -/
structure Answered (defs : List Definition) (i : Nat) (d : Definition) (s : Shape) : Prop where
  definition_eq : defs[i]? = some d
  shape_eq : ((empty.run (defs.take i)).define d.name d.fields).1 = s

/-- What definitions in an empty table answer, and what they leave. -/
structure Defines (defs : List Definition) : Prop where
  eq_iff : ∀ {i j : Nat} {d e : Definition} {s u : Shape}, Answered defs i d s →
    Answered defs j e u → (s = u ↔ d.name = e.name)
  /-- The fields are those of the first definition of the name. -/
  fields : ∀ {i : Nat} {d : Definition} {s : Shape}, Answered defs i d s →
    s.name = d.name ∧ defs.find? (·.name == d.name) = some ⟨d.name, s.fields⟩
  /-- A name has its shape from then on. -/
  kept : ∀ {i : Nat} {d : Definition} {s : Shape}, Answered defs i d s →
    ∀ k, i < k → (empty.run (defs.take k)).get? d.name = some s
  /-- Later definitions of the name hand out the shape that is there, and leave
  the table alone. -/
  again : ∀ {i : Nat} {d : Definition} {s : Shape}, Answered defs i d s →
    ∀ k, i < k → ∀ fields : List String,
      (empty.run (defs.take k)).define d.name fields = (s, empty.run (defs.take k))
  id_ne : (namesOf defs).length < 4294967296 → ∀ {i j : Nat} {d e : Definition} {s u : Shape},
    Answered defs i d s → Answered defs j e u → s ≠ u → s.id ≠ u.id
  same_iff : (namesOf defs).length < 4294967296 → ∀ {i j : Nat} {d e : Definition} {s u : Shape},
    Answered defs i d s → Answered defs j e u → (s.same u = true ↔ d.name = e.name)

-- -------------------------------------------------------------- the two forms

/-- The shape that definitions give to a name: its number is the place of the
name, its fields are those of the first definition. -/
structure Gives (defs : List Definition) (name : String) (s : Shape) : Prop where
  place : ∃ p, (namesOf defs)[p]? = some name ∧ s.id = .ofPlace p
  name_eq : s.name = name
  first : defs.find? (·.name == name) = some ⟨name, s.fields⟩

variable {defs defs' : List Definition} {name : String} {s u : Shape}

theorem Gives.mem (gives : Gives defs name s) : name ∈ defs.map (·.name) := by
  obtain ⟨p, place, -⟩ := gives.place
  exact mem_of_place place

/-- A name is given one shape. -/
theorem Gives.unique (one : Gives defs name s) (other : Gives defs name u) : s = u := by
  obtain ⟨p, hp, hs⟩ := one.place
  obtain ⟨q, hq, hu⟩ := other.place
  have hplace := (place_eq_iff hp hq).mpr rfl
  have hfields : s.fields = u.fields := by
    have := one.first.symm.trans other.first
    exact congrArg Definition.fields (Option.some.inj this)
  obtain ⟨id, sname, fields⟩ := s
  obtain ⟨id', sname', fields'⟩ := u
  dsimp only at hs hu hfields
  rw [hs, hu, hplace, hfields, show sname = name from one.name_eq,
    show sname' = name from other.name_eq]

/-- More definitions give the same shapes. -/
theorem Gives.of_longer (gives : Gives defs name s) (longer : defs <+: defs') :
    Gives defs' name s where
  place := by
    obtain ⟨p, place, hid⟩ := gives.place
    exact ⟨p, getElem?_of_longer (prefix_firstSeen (longer.map _)) place, hid⟩
  name_eq := gives.name_eq
  first := by
    obtain ⟨added, rfl⟩ := longer
    rw [List.find?_append, gives.first, Option.some_or]

/-- The map holds the shapes that definitions give, and the counter stands at the
next place. -/
structure Records (t : ShapeTable) (defs : List Definition) : Prop where
  nextId_eq : t.nextId = (namesOf defs).length % 4294967296
  gives : ∀ {name : String} {s : Shape}, t.get? name = some s → Gives defs name s
  isSome_get? : ∀ {name : String}, name ∈ defs.map (·.name) → (t.get? name).isSome

variable {t : ShapeTable} {d : Definition}

theorem records_empty : Records empty [] where
  nextId_eq := rfl
  gives h := by cases h
  isSome_get? h := by cases h

theorem Records.get?_iff (records : Records t defs) :
    t.get? name = some s ↔ Gives defs name s := by
  refine ⟨records.gives, fun gives => ?_⟩
  obtain ⟨u, hu⟩ := Option.isSome_iff_exists.mp (records.isSome_get? gives.mem)
  rw [hu, (records.gives hu).unique gives]

theorem namesOf_concat_of_mem (old : d.name ∈ defs.map (·.name)) :
    namesOf (defs ++ [d]) = namesOf defs := by
  unfold namesOf
  rw [List.map_append, List.map_singleton, firstSeen_concat_of_mem old]

theorem namesOf_concat_of_notMem (fresh : d.name ∉ defs.map (·.name)) :
    namesOf (defs ++ [d]) = namesOf defs ++ [d.name] := by
  unfold namesOf
  rw [List.map_append, List.map_singleton, firstSeen_concat_of_notMem fresh]

/-- A definition of a known name gives nothing new. -/
theorem Records.again (records : Records t defs) (old : d.name ∈ defs.map (·.name)) :
    Records t (defs ++ [d]) where
  nextId_eq := by
    rw [namesOf_concat_of_mem old]
    exact records.nextId_eq
  gives h := (records.gives h).of_longer (List.prefix_append _ _)
  isSome_get? {name} mem := by
    simp only [List.map_append, List.map_singleton, List.mem_append, List.mem_singleton] at mem
    rcases mem with mem | heq
    · exact records.isSome_get? mem
    · exact records.isSome_get? (heq ▸ old)

/-- A definition of a new name gives it a shape, and moves the counter. -/
theorem Records.add (records : Records t defs) (fresh : d.name ∉ defs.map (·.name)) :
    Records ⟨(t.nextId + 1) % 4294967296, t.shapes.set d.name ⟨⟨t.nextId⟩, d.name, d.fields⟩⟩
      (defs ++ [d]) where
  nextId_eq := by
    rw [namesOf_concat_of_notMem fresh, List.length_append, List.length_singleton,
      records.nextId_eq]
    exact Nat.mod_add_mod _ _ _
  gives {name s} h := by
    unfold get? at h
    by_cases hname : name = d.name
    · subst hname
      rw [Bindings.get?_set_self] at h
      cases h
      refine ⟨⟨(namesOf defs).length, ?_, ?_⟩, rfl, ?_⟩
      · rw [namesOf_concat_of_notMem fresh]
        exact List.getElem?_concat_length
      · exact congrArg ShapeId.mk records.nextId_eq
      · have hnone : defs.find? (·.name == d.name) = none := by
          refine List.find?_eq_none.mpr fun e mem heq => fresh ?_
          exact beq_iff_eq.mp heq ▸ List.mem_map_of_mem mem
        rw [List.find?_append, hnone, List.find?_singleton]
        simp
    · rw [Bindings.get?_set_of_ne hname] at h
      exact (records.gives h).of_longer (List.prefix_append _ _)
  isSome_get? {name} mem := by
    unfold get?
    by_cases hname : name = d.name
    · rw [hname, Bindings.get?_set_self]
      rfl
    · simp only [List.map_append, List.map_singleton, List.mem_append, List.mem_singleton] at mem
      rw [Bindings.get?_set_of_ne hname]
      exact records.isSome_get? (mem.resolve_right hname)

/-- A definition answers the shape that is given to its name, and the two forms go
on agreeing. -/
theorem Records.define (records : Records t defs) (d : Definition) :
    Records (t.define d.name d.fields).2 (defs ++ [d])
      ∧ Gives (defs ++ [d]) d.name (t.define d.name d.fields).1 := by
  unfold ShapeTable.define
  cases found : t.get? d.name with
  | some s =>
      have hrecords := records.again (records.gives found).mem
      exact ⟨hrecords, hrecords.gives found⟩
  | none =>
      have fresh : d.name ∉ defs.map (·.name) := by
        intro mem
        have hsome := records.isSome_get? mem
        rw [found] at hsome
        cases hsome
      have hrecords := records.add fresh
      exact ⟨hrecords, hrecords.gives (Bindings.get?_set_self _ _ _)⟩

/-- The two forms agree after any definitions. -/
theorem Records.run {before : List Definition} (records : Records t before)
    (defs : List Definition) : Records (t.run defs) (before ++ defs) := by
  induction defs generalizing t before with
  | nil => simpa [ShapeTable.run] using records
  | cons d defs ih =>
      have hrun := ih (records.define d).1
      rw [List.append_assoc] at hrun
      exact hrun

theorem records_run (defs : List Definition) : Records (empty.run defs) defs :=
  records_empty.run defs

-- -------------------------------------------------------------------- shapes

variable {i k : Nat}

/-- A definition answers the shape that is given to its name by as much of the
list as there is up to it. -/
theorem Answered.gives_take (answered : Answered defs i d s) (lt : i < k) :
    Gives (defs.take k) d.name s := by
  obtain ⟨definition_eq, rfl⟩ := answered
  have hgives := ((records_run (defs.take i)).define d).2
  have htake : defs.take i ++ [d] = defs.take (i + 1) := by
    rw [List.take_add_one, definition_eq]
    rfl
  rw [htake] at hgives
  exact hgives.of_longer (List.take_prefix_take_left lt)

theorem Answered.gives (answered : Answered defs i d s) : Gives defs d.name s := by
  have hgives := answered.gives_take (Nat.lt_succ_self i)
  exact hgives.of_longer (List.take_prefix _ _)

theorem Answered.eq_iff {j : Nat} {e : Definition} (first : Answered defs i d s)
    (second : Answered defs j e u) : s = u ↔ d.name = e.name := by
  constructor
  · intro h
    rw [← first.gives.name_eq, h, second.gives.name_eq]
  · intro h
    exact first.gives.unique (h ▸ second.gives)

/-- With fewer names than numbers, numbers tell names apart. -/
theorem Answered.id_eq_iff (few : (namesOf defs).length < 4294967296) {j : Nat} {e : Definition}
    (first : Answered defs i d s) (second : Answered defs j e u) :
    s.id = u.id ↔ d.name = e.name := by
  constructor
  · intro h
    obtain ⟨p, hp, hs⟩ := first.gives.place
    obtain ⟨q, hq, hu⟩ := second.gives.place
    have hplt := (List.getElem?_eq_some_iff.mp hp).1
    have hqlt := (List.getElem?_eq_some_iff.mp hq).1
    have hmod : p % 4294967296 = q % 4294967296 :=
      congrArg ShapeId.index (hs.symm.trans (h.trans hu))
    exact (place_eq_iff hp hq).mp (by omega)
  · intro h
    rw [(first.eq_iff second).mpr h]

theorem Answered.get?_take (answered : Answered defs i d s) (lt : i < k) :
    (empty.run (defs.take k)).get? d.name = some s :=
  (records_run (defs.take k)).get?_iff.mpr (answered.gives_take lt)

/-- What definitions promise. -/
theorem defines (defs : List Definition) : Defines defs where
  eq_iff := Answered.eq_iff
  fields answered := ⟨answered.gives.name_eq, answered.gives.first⟩
  kept answered _ lt := answered.get?_take lt
  again answered k lt fields := by
    unfold define
    rw [answered.get?_take lt]
  id_ne few _ _ _ _ _ _ first second ne h :=
    ne ((first.eq_iff second).mpr ((first.id_eq_iff few second).mp h))
  same_iff few _ _ _ _ _ _ first second := beq_iff_eq.trans (first.id_eq_iff few second)

end ShapeTable

-- ================================================================ both tables

/-- With fewer texts than symbols, calls on a new symbol table answer as a
bijection between texts and places does, and definitions in a new table of layouts
hand out one shape for each name. -/
theorem interning_stable (calls : List SymbolTable.Call)
    (few : (SymbolTable.namesOf calls).length < 4294967296) (defs : List ShapeTable.Definition) :
    SymbolTable.Interns calls ∧ ShapeTable.Defines defs :=
  ⟨SymbolTable.interns_of_few few, ShapeTable.defines defs⟩

theorem interning_stable_again :
    (SymbolTable.namesOf [.intern "to_s", .lookup "to_i", .intern "to_i", .intern "to_s"]).length
        < 4294967296
      ∧ SymbolTable.Interns [.intern "to_s", .lookup "to_i", .intern "to_i", .intern "to_s"]
      ∧ ShapeTable.Defines [⟨"error", ["message", "trace"]⟩, ⟨"range", []⟩, ⟨"error", []⟩] :=
  ⟨by decide, interning_stable _ (by decide) _⟩

end ObjectModel
