/-
Patch files and their features.

A file is a patch if something stands in front of the ending of its name. Its
feature is the path to it without that ending, and as names have no slashes in
them, nothing but the file itself has that feature (`feature_injective`). So a
home directory's patches are its patch files, one by one, and the path of a patch
leads to its file.

The one name that must not occur is `..rb`: in front of its ending stands a dot
that is lost together with the ending.

Marking a patch changes what is known of that feature only, so the answer to a
mark depends on no more than whether the feature was marked before
(`markApplied_markAll`).
-/
import ObjectModel.Files.Patches
import ObjectModel.Proofs.Bindings
import ObjectModel.Proofs.Files.Paths

namespace ObjectModel

-- =================================================================== file names

namespace PatchFiles

/-- What stands behind the last dot. -/
theorem reverse_takeWhile_reverse {stem extension : List Char} (dotless : '.' ∉ extension) :
    ((stem ++ '.' :: extension).reverse.takeWhile (· ≠ '.')).reverse = extension := by
  have hall : ∀ c ∈ extension.reverse, decide (c ≠ '.') = true := by
    intro c mem
    refine decide_eq_true ?_
    rintro rfl
    exact dotless (List.mem_reverse.mp mem)
  rw [List.reverse_append, List.reverse_cons, List.append_assoc,
    List.takeWhile_append_of_pos hall, List.singleton_append,
    List.takeWhile_cons_of_neg (by decide), List.append_nil, List.reverse_reverse]

/-- A name is divided at its last dot, if something stands in front of that. -/
theorem splitExtension?_append {stem extension : List Char} (dotless : '.' ∉ extension)
    (nonempty : stem ≠ []) (not_above : stem ++ '.' :: extension ≠ ['.', '.']) :
    splitExtension? (stem ++ '.' :: extension) = some (stem, extension) := by
  have hlength : (stem ++ '.' :: extension).length - extension.length - 1 = stem.length := by
    rw [List.length_append, List.length_cons]
    omega
  unfold splitExtension?
  dsimp only
  rw [reverse_takeWhile_reverse dotless, hlength, List.take_left, if_neg]
  rintro (hsame | hempty | habove)
  · rw [List.length_append, List.length_cons] at hsame
    omega
  · exact nonempty (List.isEmpty_iff.mp hempty)
  · exact not_above habove

/-- A name is divided at a dot, and never into nothing and something. -/
theorem eq_append_of_splitExtension? {name stem extension : List Char}
    (h : splitExtension? name = some (stem, extension)) :
    name = stem ++ '.' :: extension ∧ stem ≠ [] := by
  unfold splitExtension? at h
  dsimp only at h
  by_cases hdot : '.' ∈ name
  · obtain ⟨behind, front, hreverse, hbehind⟩ :=
      List.eq_append_cons_of_mem (List.mem_reverse.mpr hdot)
    have hname : name = front.reverse ++ '.' :: behind.reverse := by
      rw [← List.reverse_reverse name, hreverse, List.reverse_append, List.reverse_cons,
        List.append_assoc, List.singleton_append]
    have hdotless : '.' ∉ behind.reverse := fun mem => hbehind (List.mem_reverse.mp mem)
    have hlength : (front.reverse ++ '.' :: behind.reverse).length - behind.reverse.length - 1
        = front.reverse.length := by
      rw [List.length_append, List.length_cons]
      omega
    rw [hname, reverse_takeWhile_reverse hdotless, hlength, List.take_left] at h
    split at h
    · cases h
    · next hno =>
      cases h
      exact ⟨hname, fun hnil => hno (.inr (.inl (List.isEmpty_iff.mpr hnil)))⟩
  · have hall : ∀ c ∈ name.reverse, decide (c ≠ '.') = true := by
      intro c mem
      refine decide_eq_true ?_
      rintro rfl
      exact hdot (List.mem_reverse.mp mem)
    have hwhole : name.reverse.takeWhile (· ≠ '.') = name.reverse := by
      have htake : (name.reverse ++ []).takeWhile (· ≠ '.')
          = name.reverse ++ [].takeWhile (· ≠ '.') := List.takeWhile_append_of_pos hall
      rw [List.append_nil, List.takeWhile_nil, List.append_nil] at htake
      exact htake
    rw [hwhole, List.reverse_reverse, if_pos (.inl rfl)] at h
    cases h

/-- A patch file's name is something and the ending. -/
theorem stem?_eq_some_iff {name stem : String} (dotted : name ≠ "..rb") :
    stem? name = some stem ↔ stem ≠ "" ∧ name = stem ++ ".rb" := by
  have hending : ".rb".toList = ['.', 'r', 'b'] := rfl
  constructor
  · intro h
    unfold stem? at h
    split at h
    · next hsplit =>
      -- the stem would be a dot
      obtain ⟨hname, -⟩ := eq_append_of_splitExtension? hsplit
      refine absurd (String.toList_inj.mp ?_) dotted
      exact hname
    · next stem' _ hsplit =>
      cases h
      obtain ⟨hname, hstem⟩ := eq_append_of_splitExtension? hsplit
      refine ⟨?_, String.toList_inj.mp ?_⟩
      · intro hempty
        refine hstem ?_
        rw [← String.toList_ofList (l := stem'), hempty, String.toList_empty]
      · rw [String.toList_append, String.toList_ofList, hending]
        exact hname
    · cases h
  · rintro ⟨nonempty, rfl⟩
    have hstem : stem.toList ≠ [] := fun hnil => nonempty (String.toList_eq_nil_iff.mp hnil)
    have hsplit : splitExtension? (stem ++ ".rb").toList = some (stem.toList, ['r', 'b']) := by
      rw [String.toList_append, hending]
      refine splitExtension?_append (by decide) hstem fun heq => ?_
      have hlength := congrArg List.length heq
      simp at hlength
    unfold stem?
    rw [hsplit]
    split
    · next h =>
      have hdot : stem.toList = ['.'] := (Prod.mk.inj (Option.some.inj h)).1
      refine absurd (String.toList_inj.mp ?_) dotted
      rw [String.toList_append, hdot]
      rfl
    · next h =>
      cases h
      rw [String.ofList_toList]
    · next hne => exact (hne _ rfl).elim

end PatchFiles

-- ======================================================================= trees

namespace FileNode

variable {entries : List (String × FileNode)} {name : String} {names : List String}
  {node found : FileNode}

/-- A tree as file systems have it, in which no file has the name that loses more
than its ending. -/
inductive Regular : FileNode → Prop
  | file (text : String) : Regular (.file text)
  | directory {entries : List (String × FileNode)} (distinct : (entries.map (·.1)).Nodup)
      (legal : ∀ e ∈ entries, FileName e.1)
      (undotted : ∀ e ∈ entries, e.1 = "..rb" → e.2.isDirectory = true)
      (nodes : ∀ e ∈ entries, Regular e.2) : Regular (.directory entries)

theorem find?_eq_lookup (entries : List (String × FileNode)) (name : String) :
    find? name entries = Bindings.lookup entries name := by
  induction entries with
  | nil => rfl
  | cons entry rest ih =>
      unfold find? Bindings.lookup
      rw [ih]

/-- Where names are distinct, a name finds exactly its entry. -/
theorem find?_eq_some_iff (distinct : (entries.map (·.1)).Nodup) :
    find? name entries = some node ↔ (name, node) ∈ entries := by
  rw [find?_eq_lookup]
  exact (Bindings.mem_entries_iff (b := ⟨entries⟩) distinct).symm

theorem descend?_cons_iff (distinct : (entries.map (·.1)).Nodup) :
    (FileNode.directory entries).descend? (name :: names) = some found
      ↔ ∃ node, (name, node) ∈ entries ∧ node.descend? names = some found := by
  rw [descend?, Option.bind_eq_some_iff]
  exact exists_congr fun node => and_congr_left' (find?_eq_some_iff distinct)

/-- All names on the way to something are names that a file system gives. -/
theorem Regular.legal_of_descend? (regular : node.Regular) :
    ∀ {names : List String}, node.descend? names = some found → ∀ n ∈ names, FileName n := by
  induction regular with
  | file text =>
      intro names h
      cases names with
      | nil => exact nofun
      | cons name names => cases h
  | directory distinct legal _ _ ih =>
      intro names h
      cases names with
      | nil => exact nofun
      | cons name names =>
          obtain ⟨child, hmem, hbelow⟩ := (descend?_cons_iff distinct).mp h
          exact List.forall_mem_cons.mpr ⟨legal _ hmem, ih _ hmem hbelow⟩

end FileNode

-- ==================================================================== discovery

namespace PatchFiles

variable {entries : List (String × FileNode)} {above above' : List String}
  {stem stem' f : String}

/-- There is a patch file in a directory, or below it in the directories `above`. -/
def HasFile (entries : List (String × FileNode)) (above : List String) (stem : String) : Prop :=
  stem ≠ "" ∧ ∃ text, (FileNode.directory entries).descend? (above ++ [stem ++ ".rb"])
    = some (.file text)

/-- The feature of a patch file. -/
def featureOf (above : List String) (stem : String) : String := "/".intercalate (above ++ [stem])

theorem hasFile_nil (distinct : (entries.map (·.1)).Nodup) :
    HasFile entries [] stem ↔ stem ≠ "" ∧ ∃ text, (stem ++ ".rb", .file text) ∈ entries := by
  unfold HasFile
  refine and_congr_right' (exists_congr fun text => ?_)
  rw [List.nil_append, FileNode.descend?_cons_iff distinct]
  exact ⟨fun ⟨node, hmem, hnode⟩ => by cases hnode; exact hmem, fun hmem => ⟨_, hmem, rfl⟩⟩

/-- What is found through a directory is found in one. -/
theorem hasFile_cons (distinct : (entries.map (·.1)).Nodup) {d : String} :
    HasFile entries (d :: above) stem
      ↔ ∃ inner, (d, .directory inner) ∈ entries ∧ HasFile inner above stem := by
  unfold HasFile
  constructor
  · rintro ⟨nonempty, text, h⟩
    obtain ⟨node, hmem, hbelow⟩ := (FileNode.descend?_cons_iff distinct).mp h
    cases node with
    | file text' =>
        -- nothing is below a file
        cases above <;> cases hbelow
    | directory inner => exact ⟨inner, hmem, nonempty, text, hbelow⟩
  · rintro ⟨inner, hmem, nonempty, text, hbelow⟩
    exact ⟨nonempty, text, (FileNode.descend?_cons_iff distinct).mpr ⟨_, hmem, hbelow⟩⟩

theorem mem_featuresIn_iff : ∀ {entries : List (String × FileNode)},
    f ∈ featuresIn above entries ↔ ∃ e ∈ entries, f ∈ featuresOf above e.1 e.2 := by
  intro entries
  induction entries with
  | nil => exact ⟨nofun, fun ⟨e, hmem, _⟩ => by cases hmem⟩
  | cons entry rest ih =>
      obtain ⟨name, node⟩ := entry
      rw [featuresIn, List.mem_append, ih]
      constructor
      · rintro (h | ⟨e, hmem, h⟩)
        · exact ⟨(name, node), List.mem_cons_self, h⟩
        · exact ⟨e, List.mem_cons_of_mem _ hmem, h⟩
      · rintro ⟨e, hmem, h⟩
        rcases List.mem_cons.mp hmem with rfl | hrest
        · exact .inl h
        · exact .inr ⟨e, hrest, h⟩

/-- The features below a directory are those of its patch files. -/
theorem mem_featuresIn_iff_hasFile {node : FileNode} (regular : node.Regular) :
    ∀ {entries : List (String × FileNode)} (prior : List String), node = .directory entries →
      (f ∈ featuresIn prior entries
        ↔ ∃ above stem, HasFile entries above stem ∧ f = featureOf (prior ++ above) stem) := by
  induction regular with
  | file text => intro entries prior h; cases h
  | directory distinct legal undotted nodes ih =>
      rename_i entries
      intro entries' prior h
      cases h
      rw [mem_featuresIn_iff]
      constructor
      · rintro ⟨⟨name, node⟩, hmem, hf⟩
        cases node with
        | file text =>
            have hdotted : name ≠ "..rb" := fun heq => Bool.noConfusion (undotted _ hmem heq)
            rw [featuresOf] at hf
            split at hf
            · next stem hstem =>
              obtain ⟨nonempty, rfl⟩ := (stem?_eq_some_iff hdotted).mp hstem
              refine ⟨[], stem, (hasFile_nil distinct).mpr ⟨nonempty, text, hmem⟩, ?_⟩
              rw [List.append_nil]
              exact List.mem_singleton.mp hf
            · cases hf
        | directory inner =>
            rw [featuresOf] at hf
            obtain ⟨above, stem, hfile, rfl⟩ := (ih _ hmem _ rfl).mp hf
            refine ⟨name :: above, stem, (hasFile_cons distinct).mpr ⟨inner, hmem, hfile⟩, ?_⟩
            exact congrArg (featureOf · stem) (List.append_cons prior name above).symm
      · rintro ⟨above, stem, hfile, rfl⟩
        cases above with
        | nil =>
            obtain ⟨nonempty, text, hmem⟩ := (hasFile_nil distinct).mp hfile
            refine ⟨_, hmem, ?_⟩
            have hdotted : stem ++ ".rb" ≠ "..rb" := fun heq =>
              Bool.noConfusion (undotted _ hmem heq)
            rw [featuresOf, (stem?_eq_some_iff hdotted).mpr ⟨nonempty, rfl⟩, List.append_nil]
            exact List.mem_singleton_self _
        | cons d above =>
            obtain ⟨inner, hmem, hinner⟩ := (hasFile_cons distinct).mp hfile
            refine ⟨_, hmem, ?_⟩
            rw [featuresOf]
            refine (ih _ hmem _ rfl).mpr ⟨above, stem, hinner, ?_⟩
            exact congrArg (featureOf · stem) (List.append_cons prior d above)

/-- Different patch files have different features. -/
theorem feature_injective (regular : (FileNode.directory entries).Regular)
    (file : HasFile entries above stem) (file' : HasFile entries above' stem')
    (same : featureOf above stem = featureOf above' stem') : above = above' ∧ stem = stem' := by
  have hslashless : ∀ {above stem}, HasFile entries above stem →
      ∀ n ∈ above ++ [stem], '/' ∉ n.toList := by
    rintro above stem ⟨-, text, hfound⟩ n mem
    have hlegal := regular.legal_of_descend? hfound
    rcases List.mem_append.mp mem with habove | hstem
    · exact (hlegal n (List.mem_append_left _ habove)).slashless
    · -- the stem has no slash as the whole name has none
      have hname := (hlegal (stem ++ ".rb") List.mem_concat_self).slashless
      rw [String.toList_append, List.mem_append, not_or] at hname
      rw [List.mem_singleton.mp hstem]
      exact hname.1
  have hnames := eq_of_intercalate (List.concat_ne_nil _ _) (List.concat_ne_nil _ _)
    (hslashless file) (hslashless file') same
  obtain ⟨habove, hstem⟩ := List.append_inj' hnames rfl
  exact ⟨habove, List.singleton_inj.mp hstem⟩

-- ============================================================ what is discovered

variable {files : FileTree} {home : String} {p : PatchFiles}

/-- Features bound one after another, none of them applied. -/
theorem get?_foldl_set (features : List String) (b : Bindings Bool) (f : String) :
    (features.foldl (fun b f => b.set f false) b).get? f
      = if f ∈ features then some false else b.get? f := by
  induction features generalizing b with
  | nil => rfl
  | cons g features ih =>
      rw [List.foldl_cons, ih]
      by_cases hfeatures : f ∈ features
      · rw [if_pos hfeatures, if_pos (List.mem_cons_of_mem _ hfeatures)]
      · rw [if_neg hfeatures]
        by_cases hg : f = g
        · subst hg
          rw [if_pos List.mem_cons_self, Bindings.get?_set_self]
        · rw [if_neg (List.not_mem_cons_of_ne_of_not_mem hg hfeatures), Bindings.get?_set_of_ne hg]

theorem nodup_keys_foldl_set (features : List String) {b : Bindings Bool} (nodup : b.keys.Nodup) :
    (features.foldl (fun b f => b.set f false) b).keys.Nodup := by
  induction features generalizing b with
  | nil => exact nodup
  | cons g features ih => exact ih (Bindings.nodup_keys_set nodup g false)

theorem discover_eq (found : files.node (joinPath home patchDirectory) = .ok (.directory entries)) :
    discover files home = ⟨some (joinPath home patchDirectory),
      (featuresIn [] entries).foldl (fun b f => b.set f false) .empty⟩ := by
  unfold discover
  dsimp only
  rw [found]

/-- What is discovered is not applied yet. -/
theorem get?_discover (found : files.node (joinPath home patchDirectory) = .ok (.directory entries))
    (f : String) : (discover files home).applied.get? f
      = if f ∈ featuresIn [] entries then some false else none := by
  rw [discover_eq found]
  exact get?_foldl_set _ _ f

theorem isPatch_discover
    (found : files.node (joinPath home patchDirectory) = .ok (.directory entries)) :
    (discover files home).isPatch f = true ↔ f ∈ featuresIn [] entries := by
  unfold isPatch Bindings.contains
  rw [get?_discover found]
  split
  · next h => exact iff_of_true rfl h
  · next h => exact iff_of_false Bool.false_ne_true h

/-- Every patch is listed, once. -/
theorem features_discover
    (found : files.node (joinPath home patchDirectory) = .ok (.directory entries)) :
    (discover files home).features.Nodup
      ∧ ∀ f, f ∈ (discover files home).features ↔ (discover files home).isPatch f = true := by
  have hnodup : (discover files home).applied.keys.Nodup := by
    rw [discover_eq found]
    exact nodup_keys_foldl_set _ List.nodup_nil
  have hperm : (discover files home).features.Perm (discover files home).applied.keys :=
    List.mergeSort_perm _ _
  refine ⟨hperm.nodup_iff.mpr hnodup, fun f => ?_⟩
  rw [hperm.mem_iff]
  unfold isPatch Bindings.contains Bindings.keys
  rw [Option.isSome_iff_exists, List.mem_map]
  constructor
  · rintro ⟨⟨_, applied⟩, hmem, rfl⟩
    exact ⟨applied, (Bindings.mem_entries_iff hnodup).mp hmem⟩
  · rintro ⟨applied, h⟩
    exact ⟨(f, applied), Bindings.mem_of_get? h, rfl⟩

theorem featureOf_append (above : List String) (stem : String) :
    featureOf above stem ++ ".rb" = "/".intercalate (above ++ [stem ++ ".rb"]) :=
  (intercalate_concat_append "/" stem ".rb" above).symm

theorem head?_patchDirectory : patchDirectory.toList.head? ≠ some '/' := by decide

/-- The patch directory ends in a name. -/
theorem joinable_root (home : String) : Joinable (joinPath home patchDirectory) := by
  obtain ⟨start, hstart⟩ := exists_joinPath_eq_append home head?_patchDirectory
  have hname : FileName "patches" := by decide
  have hdirectory : patchDirectory = "lib/" ++ "patches" := rfl
  rw [hstart, hdirectory, ← String.append_assoc]
  exact hname.joinable_append _

/-- The path of a patch is put together from the names that lead to its file, and
leads there. -/
theorem path_discover
    (found : files.node (joinPath home patchDirectory) = .ok (.directory entries))
    (regular : (FileNode.directory entries).Regular)
    (patch : (discover files home).isPatch (featureOf above stem) = true)
    (file : HasFile entries above stem) :
    ∃ path here, (discover files home).path? (featureOf above stem) = some path
      ∧ path = (above ++ [stem ++ ".rb"]).foldl joinPath (joinPath home patchDirectory)
      ∧ files.resolve (joinPath home patchDirectory) = .ok here
      ∧ files.resolve path = .ok (here ++ (above ++ [stem ++ ".rb"])) := by
  obtain ⟨-, text, hfound⟩ := file
  have hlegal := regular.legal_of_descend? hfound
  have hjoinable := joinable_root home
  obtain ⟨here, hhere, hdirectory⟩ := FileTree.resolve_of_node found
  refine ⟨_, here, ?_, rfl, hhere,
    FileTree.resolve_foldl_joinPath hjoinable hhere hdirectory hfound hlegal⟩
  unfold path?
  rw [if_pos patch, discover_eq found, featureOf_append,
    foldl_joinPath hjoinable (List.concat_ne_nil _ _) hlegal]
  exact congrArg some (joinPath_of_joinable hjoinable (relative_intercalate hlegal))

-- ====================================================================== marking

/-- The patches after these were marked, one after another. -/
def markAll (p : PatchFiles) (marks : List String) : PatchFiles :=
  marks.foldl (fun p f => (p.markApplied f).2) p

theorem markApplied_fst_iff : (p.markApplied f).1 = true ↔ p.applied.get? f = some false := by
  unfold markApplied
  split
  · next h => exact iff_of_true rfl h
  · next h => exact iff_of_false Bool.false_ne_true h

/-- A mark changes what is known of its feature, if that is a patch. -/
theorem get?_markApplied (p : PatchFiles) (g f : String) :
    (p.markApplied g).2.applied.get? f
      = if f = g ∧ p.isPatch g = true then some true else p.applied.get? f := by
  unfold markApplied isPatch Bindings.contains
  cases hg : p.applied.get? g with
  | none => rw [if_neg fun h => Bool.false_ne_true h.2]
  | some applied =>
      by_cases hf : f = g
      · subst hf
        rw [if_pos ⟨rfl, rfl⟩]
        cases applied with
        | false => exact Bindings.get?_set_self ..
        | true => exact hg
      · rw [if_neg fun h => hf h.1]
        cases applied with
        | false => exact Bindings.get?_set_of_ne hf ..
        | true => rfl

theorem isPatch_markApplied (p : PatchFiles) (g f : String) :
    (p.markApplied g).2.isPatch f = p.isPatch f := by
  unfold isPatch Bindings.contains
  rw [get?_markApplied]
  split
  · next h =>
    obtain ⟨rfl, hpatch⟩ := h
    exact hpatch.symm
  · rfl

/-- A patch is known to be applied after marks of it, and nothing else is. -/
theorem get?_markAll (p : PatchFiles) (marks : List String) (f : String) :
    (p.markAll marks).applied.get? f
      = if f ∈ marks ∧ p.isPatch f = true then some true else p.applied.get? f := by
  induction marks generalizing p with
  | nil => rw [if_neg fun h => List.not_mem_nil h.1]; rfl
  | cons g marks ih =>
      change ((p.markApplied g).2.markAll marks).applied.get? f = _
      rw [ih, isPatch_markApplied, get?_markApplied]
      by_cases hpatch : p.isPatch f = true
      · by_cases hmarks : f ∈ marks
        · rw [if_pos ⟨hmarks, hpatch⟩, if_pos ⟨List.mem_cons_of_mem _ hmarks, hpatch⟩]
        · rw [if_neg fun h => hmarks h.1]
          by_cases hg : f = g
          · subst hg
            rw [if_pos ⟨rfl, hpatch⟩, if_pos ⟨List.mem_cons_self, hpatch⟩]
          · rw [if_neg fun h => hg h.1,
              if_neg fun h => List.not_mem_cons_of_ne_of_not_mem hg hmarks h.1]
      · rw [if_neg fun h => hpatch h.2, if_neg fun h : f = g ∧ _ => hpatch (h.1 ▸ h.2),
          if_neg fun h => hpatch h.2]

/-- A mark is answered by true where it is the first one of a patch. -/
theorem markApplied_markAll (p : PatchFiles) (marks : List String) (f : String) :
    ((p.markAll marks).markApplied f).1 = true ↔ p.applied.get? f = some false ∧ f ∉ marks := by
  rw [markApplied_fst_iff, get?_markAll]
  by_cases hmarks : f ∈ marks
  · rw [iff_false_right fun h => h.2 hmarks]
    split
    · exact nofun
    · next h =>
      intro hfalse
      refine h ⟨hmarks, ?_⟩
      unfold isPatch Bindings.contains
      rw [hfalse]
      rfl
  · rw [if_neg fun h => hmarks h.1, and_iff_left hmarks]

theorem isApplied_markAll (p : PatchFiles) (marks : List String) (f : String) :
    (p.markAll marks).isApplied f = true
      ↔ p.isApplied f = true ∨ p.isPatch f = true ∧ f ∈ marks := by
  unfold isApplied
  rw [get?_markAll]
  split
  · next h => exact iff_of_true rfl (.inr h.symm)
  · next h => exact (or_iff_left fun h' => h h'.symm).symm

-- ====================================================================== result

/-- What the patches of a home directory are, given what is in its patch directory. -/
structure Discovers (files : FileTree) (home : String) (entries : List (String × FileNode))
    (p : PatchFiles) : Prop where
  /-- A feature is a patch if and only if some patch file has it. -/
  isPatch_iff {feature : String} : p.isPatch feature = true
    ↔ ∃ above stem, HasFile entries above stem ∧ feature = featureOf above stem
  /-- No two files have the same feature. -/
  distinct {above above' : List String} {stem stem' : String} (file : HasFile entries above stem)
    (file' : HasFile entries above' stem')
    (same : featureOf above stem = featureOf above' stem') : above = above' ∧ stem = stem'
  /-- Each patch is listed once, and nothing else is. -/
  listed : p.features.Nodup ∧ ∀ feature, feature ∈ p.features ↔ p.isPatch feature = true
  /-- The path of a patch is that of its file, and that is where it leads. -/
  path {above : List String} {stem : String} (file : HasFile entries above stem) :
    ∃ path here, p.path? (featureOf above stem) = some path
      ∧ path = (above ++ [stem ++ ".rb"]).foldl joinPath (joinPath home patchDirectory)
      ∧ files.resolve (joinPath home patchDirectory) = .ok here
      ∧ files.resolve path = .ok (here ++ (above ++ [stem ++ ".rb"]))
  /-- A mark is answered by true if it is the first one of a patch. -/
  marked (marks : List String) (feature : String) :
    ((p.markAll marks).markApplied feature).1 = true
      ↔ p.isPatch feature = true ∧ feature ∉ marks
  /-- The patches that were marked are applied, and nothing else is. -/
  applied (marks : List String) (feature : String) :
    (p.markAll marks).isApplied feature = true ↔ p.isPatch feature = true ∧ feature ∈ marks

/-- The patches of a home directory are the patch files in its patch directory. -/
theorem discovers_of_node {files : FileTree} {home : String} {entries : List (String × FileNode)}
    (found : files.node (joinPath home patchDirectory) = .ok (.directory entries))
    (regular : (FileNode.directory entries).Regular) :
    Discovers files home entries (discover files home) := by
  have hpatch : ∀ {f}, (discover files home).isPatch f = true
      ↔ ∃ above stem, HasFile entries above stem ∧ f = featureOf above stem := by
    intro f
    rw [isPatch_discover found]
    exact mem_featuresIn_iff_hasFile regular [] rfl
  have hfresh : ∀ {f}, (discover files home).applied.get? f = some false
      ↔ (discover files home).isPatch f = true := by
    intro f
    rw [isPatch_discover found, get?_discover found]
    split
    · next h => exact iff_of_true rfl h
    · next h => exact iff_of_false nofun h
  constructor
  case isPatch_iff => exact hpatch
  case distinct => exact feature_injective regular
  case listed => exact features_discover found
  case path =>
    intro above stem file
    exact path_discover found regular (hpatch.mpr ⟨above, stem, file, rfl⟩) file
  case marked =>
    intro marks f
    rw [markApplied_markAll, hfresh]
  case applied =>
    intro marks f
    rw [isApplied_markAll, or_iff_right]
    unfold isApplied
    rw [get?_discover found]
    split
    · exact Bool.false_ne_true
    · exact Bool.false_ne_true

/-- A directory called like a patch file, stems with dots in them, and two files
that are no patches. -/
def dottedEntries : List (String × FileNode) :=
  [("openssl.rb", .file ""), ("json.rb", .directory [("ext.rb.rb", .file "")]), (".rb", .file ""),
    ("README", .file "")]

/-- A home directory with these patches. -/
def dottedHome : FileTree :=
  ⟨.directory [("home", .directory [("lib", .directory [("patches", .directory dottedEntries)])])],
    []⟩

/-- Its patches are those of the two patch files. -/
theorem discovers_of_dottedHome :
    Discovers dottedHome "/home" dottedEntries (discover dottedHome "/home")
      ∧ (discover dottedHome "/home").isPatch "json.rb/ext.rb" = true := by
  have hroot : joinPath "/home" patchDirectory = "/home/lib/patches" :=
    joinPath_of_joinable ⟨'e', rfl, by decide⟩ head?_patchDirectory
  have habsolute : "/home/lib/patches".startsWith "/" = true := startsWith_slash_iff.mpr rfl
  have hfound : dottedHome.node (joinPath "/home" patchDirectory)
      = .ok (.directory dottedEntries) := by
    rw [hroot]
    unfold FileTree.node FileTree.resolve
    rw [habsolute]
    rfl
  have hinner : (FileNode.directory [("ext.rb.rb", .file "")]).Regular :=
    .directory (by decide) (by decide) (by decide) (List.forall_mem_singleton.mpr (.file _))
  have hregular : (FileNode.directory dottedEntries).Regular := by
    refine .directory (by decide) (by decide) (by decide) ?_
    simp only [dottedEntries, List.forall_mem_cons, List.not_mem_nil, false_implies, implies_true,
      and_true]
    exact ⟨.file _, hinner, .file _, .file _⟩
  have hdiscovers := discovers_of_node hfound hregular
  exact ⟨hdiscovers, hdiscovers.isPatch_iff.mpr ⟨["json.rb"], "ext.rb",
    ⟨by decide, "", rfl⟩, rfl⟩⟩

end PatchFiles

end ObjectModel
