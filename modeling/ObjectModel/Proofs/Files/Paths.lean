/-
Paths below a directory.

File systems have names without slashes, and paths have slashes in between. A path
put together from such names is read back into them (`pathNames_join`), so names
that are all there can be followed behind what leads to their directory
(`resolve_foldl_joinPath`): neither dots nor long names come in between.
-/
import ObjectModel.Files.Tree

namespace ObjectModel

/-- A name that a file system gives to something in a directory. -/
structure FileName (name : String) : Prop where
  slashless : '/' ∉ name.toList
  nulless : '\x00' ∉ name.toList
  nonempty : name ≠ ""
  not_here : name ≠ "."
  not_above : name ≠ ".."
  short : name.utf8ByteSize ≤ 255

instance (name : String) : Decidable (FileName name) :=
  decidable_of_iff
    ('/' ∉ name.toList ∧ '\x00' ∉ name.toList ∧ name ≠ "" ∧ name ≠ "." ∧ name ≠ ".."
      ∧ name.utf8ByteSize ≤ 255)
    ⟨fun ⟨a, b, c, d, e, f⟩ => ⟨a, b, c, d, e, f⟩, fun ⟨a, b, c, d, e, f⟩ => ⟨a, b, c, d, e, f⟩⟩

-- ============================================================== pieces of texts

theorem splitSlashes_ne_nil : ∀ cs : List Char, splitSlashes cs ≠ [] := by
  intro cs
  cases cs with
  | nil => exact List.cons_ne_nil _ _
  | cons c cs =>
      unfold splitSlashes
      split
      · exact List.cons_ne_nil _ _
      · split
        · exact List.cons_ne_nil _ _
        · exact List.cons_ne_nil _ _

theorem splitSlashes_cons {c : Char} (ne : c ≠ '/') {cs piece : List Char}
    {pieces : List (List Char)} (h : splitSlashes cs = piece :: pieces) :
    splitSlashes (c :: cs) = (c :: piece) :: pieces := by
  rw [splitSlashes, if_neg ne, h]

theorem splitSlashes_slash (cs : List Char) :
    splitSlashes ('/' :: cs) = [] :: splitSlashes cs := by
  rw [splitSlashes, if_pos rfl]

/-- A slash ends a piece. -/
theorem splitSlashes_append (ys : List Char) : ∀ xs : List Char,
    splitSlashes (xs ++ '/' :: ys) = splitSlashes xs ++ splitSlashes ys := by
  intro xs
  induction xs with
  | nil => exact splitSlashes_slash ys
  | cons c xs ih =>
      rw [List.cons_append]
      by_cases hc : c = '/'
      · subst hc
        rw [splitSlashes_slash, splitSlashes_slash, ih, List.cons_append]
      · cases hxs : splitSlashes xs with
        | nil => exact absurd hxs (splitSlashes_ne_nil xs)
        | cons piece pieces =>
            rw [hxs, List.cons_append] at ih
            rw [splitSlashes_cons hc hxs, splitSlashes_cons hc ih]
            rfl

theorem splitSlashes_plain : ∀ {cs : List Char}, '/' ∉ cs → splitSlashes cs = [cs] := by
  intro cs
  induction cs with
  | nil => intro _; rfl
  | cons c cs ih =>
      intro plain
      rw [List.mem_cons, not_or] at plain
      exact splitSlashes_cons (Ne.symm plain.1) (ih plain.2)

/-- Names with slashes in between are the pieces again. -/
theorem splitSlashes_intercalate : ∀ {names : List String}, names ≠ [] →
    (∀ n ∈ names, '/' ∉ n.toList) →
      splitSlashes ("/".intercalate names).toList = names.map String.toList := by
  intro names
  induction names with
  | nil => intro nonempty; exact absurd rfl nonempty
  | cons name names ih =>
      intro _ slashless
      obtain ⟨hname, hrest⟩ := List.forall_mem_cons.mp slashless
      cases names with
      | nil => rw [String.intercalate_singleton, splitSlashes_plain hname, List.map_singleton]
      | cons next names =>
          have hsplit := splitSlashes_append ("/".intercalate (next :: names)).toList name.toList
          rw [ih (List.cons_ne_nil _ _) hrest, splitSlashes_plain hname] at hsplit
          rw [String.intercalate_cons_cons, String.toList_append, String.toList_append,
            List.append_assoc]
          exact hsplit

/-- Different names give different texts. -/
theorem eq_of_intercalate {names names' : List String} (nonempty : names ≠ [])
    (nonempty' : names' ≠ []) (slashless : ∀ n ∈ names, '/' ∉ n.toList)
    (slashless' : ∀ n ∈ names', '/' ∉ n.toList)
    (same : "/".intercalate names = "/".intercalate names') : names = names' := by
  have hpieces := splitSlashes_intercalate nonempty slashless
  rw [same, splitSlashes_intercalate nonempty' slashless'] at hpieces
  exact ((List.map_inj_right fun _ _ => String.toList_inj.mp).mp hpieces).symm

theorem intercalate_concat_append (sep x y : String) : ∀ names : List String,
    sep.intercalate (names ++ [x ++ y]) = sep.intercalate (names ++ [x]) ++ y := by
  intro names
  cases names with
  | nil => rw [List.nil_append, String.intercalate_singleton, List.nil_append,
      String.intercalate_singleton]
  | cons name names =>
      have hnames : name :: names ≠ [] := List.cons_ne_nil _ _
      rw [String.intercalate_append_of_ne_nil hnames (List.cons_ne_nil _ _),
        String.intercalate_append_of_ne_nil hnames (List.cons_ne_nil _ _),
        String.intercalate_singleton, String.intercalate_singleton, String.append_assoc,
        String.append_assoc, String.append_assoc]

-- ================================================================ joined paths

/-- A path that another name can be put behind. -/
def Joinable (base : String) : Prop := ∃ c, base.toList.getLast? = some c ∧ c ≠ '/'

theorem startsWith_slash_iff {s : String} :
    s.startsWith "/" = true ↔ s.toList.head? = some '/' := by
  rw [String.startsWith_string_iff]
  change ['/'] <+: s.toList ↔ _
  cases s.toList with
  | nil => simp
  | cons c cs => simp [List.cons_prefix_cons, eq_comm]

theorem endsWith_slash_iff {s : String} :
    s.endsWith "/" = true ↔ s.toList.getLast? = some '/' := by
  rw [String.endsWith_eq_endsWith_toSlice, String.Slice.endsWith_string_iff, String.copy_toSlice]
  change ['/'] <:+ s.toList ↔ _
  rw [List.getLast?_eq_some_iff]
  exact ⟨fun ⟨t, h⟩ => ⟨t, h.symm⟩, fun ⟨t, h⟩ => ⟨t, h.symm⟩⟩

/-- What does not start with a slash goes behind the base. -/
theorem joinPath_of_joinable {base path : String} (joinable : Joinable base)
    (relative : path.toList.head? ≠ some '/') : joinPath base path = base ++ "/" ++ path := by
  obtain ⟨c, hlast, hc⟩ := joinable
  have hpath : ¬ path.startsWith "/" = true := fun h => relative (startsWith_slash_iff.mp h)
  have hends : ¬ base.endsWith "/" = true := by
    intro h
    rw [endsWith_slash_iff, hlast] at h
    exact hc (Option.some.inj h)
  have hempty : ¬ base.isEmpty = true := by
    intro h
    rw [String.isEmpty_iff.mp h] at hlast
    cases hlast
  unfold joinPath
  rw [if_neg hpath, if_neg]
  rw [Bool.or_eq_true, not_or]
  exact ⟨hempty, hends⟩

/-- A relative path stands at the end of what it is joined to. -/
theorem exists_joinPath_eq_append (base : String) {path : String}
    (relative : path.toList.head? ≠ some '/') : ∃ start, joinPath base path = start ++ path := by
  have hpath : ¬ path.startsWith "/" = true := fun h => relative (startsWith_slash_iff.mp h)
  unfold joinPath
  rw [if_neg hpath]
  split
  · exact ⟨base, rfl⟩
  · exact ⟨base ++ "/", rfl⟩

theorem FileName.toList_ne_nil {name : String} (h : FileName name) : name.toList ≠ [] :=
  fun hnil => h.nonempty (String.toList_eq_nil_iff.mp hnil)

theorem FileName.relative {name : String} (h : FileName name) : name.toList.head? ≠ some '/' :=
  fun hhead => h.slashless (List.mem_of_head? hhead)

/-- What ends in a name takes further names. -/
theorem FileName.joinable_append {name : String} (h : FileName name) (start : String) :
    Joinable (start ++ name) := by
  refine ⟨name.toList.getLast h.toList_ne_nil, ?_, ?_⟩
  · rw [String.toList_append, List.getLast?_append, List.getLast?_eq_some_getLast h.toList_ne_nil,
      Option.some_or]
  · intro hslash
    exact h.slashless (hslash ▸ List.getLast_mem h.toList_ne_nil)

/-- Names joined one after another have slashes in between. -/
theorem foldl_joinPath : ∀ {names : List String} {base : String}, Joinable base → names ≠ [] →
    (∀ n ∈ names, FileName n) →
      names.foldl joinPath base = base ++ "/" ++ "/".intercalate names := by
  intro names
  induction names with
  | nil => intro base _ nonempty; exact absurd rfl nonempty
  | cons name names ih =>
      intro base joinable _ legal
      obtain ⟨hname, hrest⟩ := List.forall_mem_cons.mp legal
      rw [List.foldl_cons, joinPath_of_joinable joinable hname.relative]
      cases names with
      | nil => rw [List.foldl_nil, String.intercalate_singleton]
      | cons next names =>
          rw [ih (hname.joinable_append _) (List.cons_ne_nil _ _) hrest,
            String.intercalate_cons_cons]
          simp only [String.append_assoc]

/-- A path from names does not start with a slash. -/
theorem relative_intercalate {names : List String} (legal : ∀ n ∈ names, FileName n) :
    ("/".intercalate names).toList.head? ≠ some '/' := by
  cases names with
  | nil => exact nofun
  | cons name names =>
      have hname := legal name List.mem_cons_self
      cases names with
      | nil =>
          rw [String.intercalate_singleton]
          exact hname.relative
      | cons next names =>
          rw [String.intercalate_cons_cons, String.toList_append, String.toList_append,
            List.append_assoc, List.head?_append, List.head?_eq_some_head hname.toList_ne_nil,
            Option.some_or, ← List.head?_eq_some_head hname.toList_ne_nil]
          exact hname.relative

theorem exists_foldl_joinPath_eq_append : ∀ {names : List String} {base : String}, Joinable base →
    (∀ n ∈ names, FileName n) →
      ∃ tail, names.foldl joinPath base = base ++ tail ∧ '\x00' ∉ tail.toList := by
  intro names
  induction names with
  | nil => intro base _ _; exact ⟨"", String.append_empty.symm, nofun⟩
  | cons name names ih =>
      intro base joinable legal
      obtain ⟨hname, hrest⟩ := List.forall_mem_cons.mp legal
      obtain ⟨tail, htail, hnulless⟩ := ih (hname.joinable_append (base ++ "/")) hrest
      refine ⟨"/" ++ name ++ tail, ?_, ?_⟩
      · rw [List.foldl_cons, joinPath_of_joinable joinable hname.relative, htail]
        simp only [String.append_assoc]
      · rw [String.toList_append, String.toList_append, List.mem_append, List.mem_append]
        rintro ((hslash | hmem) | hmem)
        · exact absurd hslash (by decide)
        · exact hname.nulless hmem
        · exact hnulless hmem

/-- A text that does not end in a slash ends in a piece that is not empty. -/
theorem getLast?_splitSlashes {c : Char} (ne : c ≠ '/') : ∀ {cs : List Char},
    cs.getLast? = some c → (splitSlashes cs).getLast? ≠ some [] := by
  intro cs
  induction cs with
  | nil => intro hlast; cases hlast
  | cons d cs ih =>
      intro hlast
      cases cs with
      | nil =>
          cases hlast
          rw [splitSlashes_plain (by simpa using ne.symm)]
          simp
      | cons e cs =>
          rw [List.getLast?_cons_cons] at hlast
          have hrest := ih hlast
          cases hpieces : splitSlashes (e :: cs) with
          | nil => exact absurd hpieces (splitSlashes_ne_nil _)
          | cons piece pieces =>
              rw [hpieces] at hrest
              by_cases hd : d = '/'
              · subst hd
                rw [splitSlashes_slash, hpieces, List.getLast?_cons_cons]
                exact hrest
              · rw [splitSlashes_cons hd hpieces]
                cases pieces with
                | nil => simp
                | cons next pieces =>
                    rw [List.getLast?_cons_cons] at hrest ⊢
                    exact hrest

theorem pathNames_of_joinable {path : String} (joinable : Joinable path) :
    pathNames path = ((splitSlashes path.toList).filter (!·.isEmpty)).map String.ofList := by
  obtain ⟨c, hlast, hc⟩ := joinable
  unfold pathNames
  dsimp only
  exact if_neg fun h => getLast?_splitSlashes hc hlast h.2

/-- A path put together from names is read back into them. -/
theorem pathNames_foldl_joinPath {names : List String} {base : String} (joinable : Joinable base)
    (legal : ∀ n ∈ names, FileName n) :
    pathNames (names.foldl joinPath base) = pathNames base ++ names := by
  rcases List.eq_nil_or_concat names with rfl | ⟨above, last, hnames⟩
  · rw [List.foldl_nil, List.append_nil]
  rw [List.concat_eq_append] at hnames
  have hne : names ≠ [] := by
    rw [hnames]
    exact List.concat_ne_nil _ _
  have hjoined : Joinable (names.foldl joinPath base) := by
    rw [hnames, List.foldl_append, List.foldl_cons, List.foldl_nil]
    have hlast := legal last (by rw [hnames]; exact List.mem_concat_self)
    obtain ⟨start, hstart⟩ := exists_joinPath_eq_append (above.foldl joinPath base) hlast.relative
    rw [hstart]
    exact hlast.joinable_append start
  have hfiltered : (names.map String.toList).filter (!·.isEmpty) = names.map String.toList := by
    rw [List.filter_eq_self]
    intro cs mem
    obtain ⟨n, hn, rfl⟩ := List.mem_map.mp mem
    rw [Bool.not_eq_true', List.isEmpty_eq_false_iff]
    exact (legal n hn).toList_ne_nil
  rw [pathNames_of_joinable hjoined, pathNames_of_joinable joinable,
    foldl_joinPath joinable hne legal, String.toList_append, String.toList_append,
    List.append_assoc]
  have hsplit := splitSlashes_append ("/".intercalate names).toList base.toList
  rw [splitSlashes_intercalate hne fun n mem => (legal n mem).slashless] at hsplit
  change List.map String.ofList ((splitSlashes
    (base.toList ++ '/' :: ("/".intercalate names).toList)).filter (!·.isEmpty)) = _
  rw [hsplit, List.filter_append, hfiltered, List.map_append, List.map_map]
  congr 1
  exact (List.map_congr_left fun n _ => String.ofList_toList).trans (List.map_id _)

-- ==================================================================== following

theorem FileNode.descend?_append (node : FileNode) (names names' : List String) :
    node.descend? (names ++ names') = (node.descend? names).bind (·.descend? names') := by
  induction names generalizing node with
  | nil => rfl
  | cons name names ih =>
      cases node with
      | file text => rfl
      | directory entries =>
          rw [List.cons_append, descend?, descend?, Option.bind_assoc]
          exact congrArg _ (funext ih)

namespace FileTree

variable {t : FileTree} {names : List String} {node found : FileNode}

theorem walk_append (t : FileTree) (names' : List String) : ∀ (here names : List String),
    t.walk here (names ++ names') = (t.walk here names).bind (t.walk · names') := by
  intro here names
  induction names generalizing here with
  | nil => rfl
  | cons name names ih =>
      rw [List.cons_append, walk, walk]
      split
      · rfl
      · rfl
      · split
        · exact ih _
        · split
          · exact ih _
          · split
            · rfl
            · split
              · rfl
              · exact ih _

/-- Names that are there are followed as they are. -/
theorem walk_of_descend? : ∀ {names here : List String} {node : FileNode},
    t.root.descend? here.reverse = some node → node.descend? names = some found →
      (∀ n ∈ names, FileName n) → t.walk here names = .ok (names.reverse ++ here) := by
  intro names
  induction names with
  | nil => intro here node _ _ _; rfl
  | cons name names ih =>
      intro here node hhere hnames legal
      obtain ⟨hname, hrest⟩ := List.forall_mem_cons.mp legal
      cases node with
      | file text => cases hnames
      | directory entries =>
          rw [FileNode.descend?] at hnames
          obtain ⟨child, hchild, hbelow⟩ := Option.bind_eq_some_iff.mp hnames
          have hnext : t.root.descend? (name :: here).reverse = some child := by
            rw [List.reverse_cons, FileNode.descend?_append, hhere]
            change (FileNode.find? name entries).bind (·.descend? []) = some child
            rw [hchild]
            rfl
          unfold walk
          rw [hhere]
          dsimp only
          rw [if_neg hname.not_here, if_neg hname.not_above, if_neg (Nat.not_lt.mpr hname.short),
            hchild]
          dsimp only
          rw [ih hnext hbelow hrest, List.reverse_cons, List.append_assoc]
          rfl

/-- Something to open is where its path leads. -/
theorem resolve_of_node {path : String} (h : t.node path = .ok node) :
    ∃ here, t.resolve path = .ok here ∧ t.root.descend? here = some node := by
  unfold FileTree.node at h
  split at h
  · cases h
  · split at h
    · cases h
    · next here hresolve =>
      split at h
      · next found hfound =>
        cases h
        exact ⟨here, hresolve, hfound⟩
      · cases h

/-- What is below something that a path leads to is where names lead from there. -/
theorem resolve_foldl_joinPath {base : String} {here : List String} (joinable : Joinable base)
    (leads : t.resolve base = .ok here) (is : t.root.descend? here = some node)
    (below : node.descend? names = some found) (legal : ∀ n ∈ names, FileName n) :
    t.resolve (names.foldl joinPath base) = .ok (here ++ names) := by
  obtain ⟨tail, htail, hnulless⟩ := exists_foldl_joinPath_eq_append joinable legal
  have hnames := pathNames_foldl_joinPath joinable legal
  obtain ⟨c, hlast, -⟩ := joinable
  have hbase : base.toList ≠ [] := by
    intro hnil
    rw [hnil] at hlast
    cases hlast
  have hstarts : (base ++ tail).startsWith "/" = base.startsWith "/" := by
    rw [Bool.eq_iff_iff, startsWith_slash_iff, startsWith_slash_iff, String.toList_append,
      List.head?_append, List.head?_eq_some_head hbase, Option.some_or]
  unfold resolve at leads
  split at leads
  · cases leads
  · next hnul =>
    split at leads
    · cases leads
    · dsimp only at leads
      cases hwalk : t.walk (if base.startsWith "/" then [] else t.workingDirectory.reverse)
          (pathNames base) with
      | error e =>
          rw [hwalk] at leads
          cases leads
      | ok way =>
          rw [hwalk] at leads
          cases leads
          have hnul' : ¬ (base ++ tail).toList.contains '\x00' = true := by
            rw [List.contains_iff_mem] at hnul ⊢
            rw [String.toList_append, List.mem_append, not_or]
            exact ⟨hnul, hnulless⟩
          have hempty : ¬ (base ++ tail).isEmpty = true := by
            rw [String.isEmpty_iff, String.append_eq_empty_iff]
            intro h
            rw [h.1] at hbase
            exact hbase rfl
          unfold resolve
          rw [hnames, htail, if_neg hnul', if_neg hempty]
          dsimp only
          rw [hstarts, walk_append, hwalk]
          change ((t.walk way names).map List.reverse) = _
          rw [walk_of_descend? is below legal]
          change Except.ok (names.reverse ++ way).reverse = _
          rw [List.reverse_append, List.reverse_reverse]

end FileTree

end ObjectModel
