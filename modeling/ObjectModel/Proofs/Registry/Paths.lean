/-
Paths of constants.

A path is names with double colons in between. If no name has a colon and none
is empty, a path is read back into the names that it was written from
(`pathSegments_intercalate`). To follow the names is to go from each type to the
constant of the next name, and a type's own constants are seen before all
others. So the path of the constants that lead to a type through its lexical
parents (`LeadsTo`) resolves to the type.
-/
import ObjectModel.Proofs.Registry.Lookup

namespace ObjectModel

/-- A name that can be part of a path. -/
def PlainName (name : String) : Prop := name ≠ "" ∧ ':' ∉ name.toList

instance (name : String) : Decidable (PlainName name) := inferInstanceAs (Decidable (_ ∧ _))

namespace Registry

variable {r : Registry} {t p : TypeId} {name : String} {names : List String} {v : Value}

-- ============================================================== names and paths

theorem splitColons_cons {c : Char} (ne : c ≠ ':') {cs piece : List Char}
    {pieces : List (List Char)} (h : splitColons cs = piece :: pieces) :
    splitColons (c :: cs) = (c :: piece) :: pieces := by
  unfold splitColons
  split
  · next heq => cases heq
  · next heq =>
    cases heq
    exact absurd rfl ne
  · next heq =>
    cases heq
    rw [h]

theorem splitColons_plain : ∀ {cs : List Char}, ':' ∉ cs → splitColons cs = [cs] := by
  intro cs
  induction cs with
  | nil => intro _; rfl
  | cons c cs ih =>
      intro plain
      rw [List.mem_cons, not_or] at plain
      exact splitColons_cons (Ne.symm plain.1) (ih plain.2)

/-- A piece without a colon ends at the first double colon. -/
theorem splitColons_append (rest : List Char) : ∀ {cs : List Char}, ':' ∉ cs →
    splitColons (cs ++ ':' :: ':' :: rest) = cs :: splitColons rest := by
  intro cs
  induction cs with
  | nil =>
      intro _
      show splitColons (':' :: ':' :: rest) = _
      rw [splitColons]
  | cons c cs ih =>
      intro plain
      rw [List.mem_cons, not_or] at plain
      exact splitColons_cons (Ne.symm plain.1) (ih plain.2)

/-- A path is read back into its names. -/
theorem pathSegments_intercalate : ∀ {names : List String}, (∀ n ∈ names, PlainName n) →
    pathSegments ("::".intercalate names) = names := by
  intro names
  induction names with
  | nil => intro _; rfl
  | cons name names ih =>
      intro plain
      obtain ⟨⟨nonempty, colonless⟩, hrest⟩ := List.forall_mem_cons.mp plain
      have hkept (rest : List (List Char)) :
          (name.toList :: rest).filter (!·.isEmpty) = name.toList :: rest.filter (!·.isEmpty) := by
        rw [List.filter_cons, if_pos]
        rw [Bool.not_eq_true', List.isEmpty_eq_false_iff]
        intro hnil
        exact nonempty (String.toList_eq_nil_iff.mp hnil)
      cases names with
      | nil =>
          unfold pathSegments
          rw [String.intercalate_singleton, splitColons_plain colonless, hkept, List.filter_nil,
            List.map_singleton, String.ofList_toList]
      | cons next names =>
          have hsplit : splitColons ("::".intercalate (name :: next :: names)).toList
              = name.toList :: splitColons ("::".intercalate (next :: names)).toList := by
            rw [String.intercalate_cons_cons, String.toList_append, String.toList_append,
              List.append_assoc]
            exact splitColons_append _ colonless
          have hnext := ih hrest
          unfold pathSegments at hnext ⊢
          rw [hsplit, hkept, List.map_cons, hnext, String.ofList_toList]

-- ============================================================ constants of types

theorem has_of_constant? (h : r.constant? t name = some v) : r.Has t := by
  by_contra hno
  unfold constant? at h
  rw [record_of_not_has r hno] at h
  cases h

/-- A type sees its own constants first. -/
theorem findConstant?_own (own : r.constant? t name = some v) :
    r.findConstant? t name = some v := by
  have hscope : [t] <+: r.constantScope t := by
    have hself := prefix_ancestors (has_of_constant? own)
    unfold constantScope
    dsimp only
    split
    · exact hself
    · exact hself.trans (List.prefix_append _ _)
  obtain ⟨rest, hrest⟩ := hscope
  unfold findConstant?
  rw [← hrest, List.findSome?_append, List.findSome?_singleton, own]
  rfl

theorem follow?_append (r : Registry) (names names' : List String) (v : Value) :
    r.follow? v (names ++ names') = (r.follow? v names).bind (r.follow? · names') := by
  induction names generalizing v with
  | nil => rfl
  | cons name names ih =>
      rw [List.cons_append, follow?, follow?]
      cases r.typeOf? v with
      | none => rfl
      | some owner =>
          dsimp only
          rw [Option.bind_assoc]
          exact congrArg _ (funext ih)

/-- To resolve a path is to follow its names from `Object` on. -/
theorem resolve?_eq_follow? (root : r.typeOf? v = some Core.object) {path : String}
    (nonempty : pathSegments path ≠ []) : r.resolve? path = r.follow? v (pathSegments path) := by
  unfold resolve?
  split
  · next h => exact absurd h nonempty
  · next first rest h =>
    rw [h, follow?, root]

/-- From a type, one name leads to its own constant of that name. -/
theorem WellFormed.follow?_own (wf : r.WellFormed) (own : r.constant? t name = some v) :
    r.follow? (r.typeValue t) [name] = some v := by
  have htype : r.typeOf? (r.typeValue t) = some t := wf.object_denotes (has_of_constant? own)
  rw [follow?, htype]
  dsimp only
  rw [findConstant?_own own]
  rfl

-- ============================================================= lexical parents

/-- The constants that lead from `Object` to a type, through its lexical
parents. -/
inductive LeadsTo (r : Registry) : TypeId → List String → Prop
  | top {t : TypeId} {name : String} (parent : (r.record t).lexicalParent = some Core.object)
      (bound : r.constant? Core.object name = some (r.typeValue t)) : LeadsTo r t [name]
  | inside {t p : TypeId} {name : String} {names : List String}
      (parent : (r.record t).lexicalParent = some p) (ne : p ≠ Core.object)
      (outer : LeadsTo r p names) (bound : r.constant? p name = some (r.typeValue t)) :
      LeadsTo r t (names ++ [name])

namespace LeadsTo

theorem has (leads : r.LeadsTo t names) : r.Has t := by
  have hparent : ∃ p, (r.record t).lexicalParent = some p := by
    cases leads with
    | top parent => exact ⟨_, parent⟩
    | inside parent => exact ⟨_, parent⟩
  by_contra hno
  rw [record_of_not_has r hno] at hparent
  obtain ⟨p, ⟨⟩⟩ := hparent

theorem ne_nil (leads : r.LeadsTo t names) : names ≠ [] := by
  cases leads with
  | top => exact List.cons_ne_nil _ _
  | inside => exact List.append_ne_nil_of_right_ne_nil _ (List.cons_ne_nil _ _)

/-- The names lead from `Object` to the type. -/
theorem follow?_eq (wf : r.WellFormed) (leads : r.LeadsTo t names) :
    r.follow? (r.typeValue Core.object) names = some (r.typeValue t) := by
  induction leads with
  | top _ bound => exact wf.follow?_own bound
  | inside _ _ _ bound ih =>
      rw [follow?_append, ih, Option.bind_some]
      exact wf.follow?_own bound

/-- The path of the names resolves to the type. -/
theorem resolve?_eq (wf : r.WellFormed) (leads : r.LeadsTo t names)
    (plain : ∀ n ∈ names, PlainName n) :
    r.resolve? ("::".intercalate names) = some (r.typeValue t) := by
  have hsegments := pathSegments_intercalate plain
  have hroot : r.typeOf? (r.typeValue Core.object) = some Core.object :=
    wf.object_denotes (wf.has_core (by decide))
  rw [resolve?_eq_follow? hroot (by rw [hsegments]; exact leads.ne_nil), hsegments]
  exact leads.follow?_eq wf

end LeadsTo

end Registry

end ObjectModel
