/-
Library patches.

A home directory may hold patches: files ending in `.rb`, at any depth under
`lib/patches`. The feature that a file patches is its path below that
directory without the ending. A patch is applied at most once.

The patch directory is opened by its path, which `FileTree.pathLimit` bounds as
it does any other. Below it the walk goes from entry to entry without a bound:
how deep directories may nest before the path of one cannot be opened in one
piece is up to the operating system, and patches count at any depth.

The ending goes first and the dot in front of it second. Two dots alone are a
name and lose nothing more, so `..rb` and `...rb` patch the same feature.
-/
import ObjectModel.Bindings
import ObjectModel.Files.Tree

namespace ObjectModel

/-- The patches of a home directory, with whether each was applied. -/
structure PatchFiles where
  root : Option String
  applied : Bindings Bool
deriving Inhabited

/-- Where a home directory keeps its patches. -/
def patchDirectory : String := "lib/patches"

namespace PatchFiles

def empty : PatchFiles := ⟨none, .empty⟩

/-- The part of a file name in front of its last dot and the part behind it;
a dot at the very start divides nothing. -/
def splitExtension? (name : List Char) : Option (List Char × List Char) :=
  let extension := (name.reverse.takeWhile (· ≠ '.')).reverse
  let stem := name.take (name.length - extension.length - 1)
  if name.length = extension.length ∨ stem.isEmpty ∨ name = ['.', '.'] then none
  else some (stem, extension)

/-- The last name of the feature that a file patches, if its name is that of a
patch. -/
def stem? (name : String) : Option String :=
  match splitExtension? name.toList with
  | some (['.'], ['r', 'b']) => some ".."
  | some (stem, ['r', 'b']) => some (String.ofList stem)
  | _ => none

mutual

/-- The features of a node, found under `name` below the directories `above`. -/
def featuresOf (above : List String) (name : String) : FileNode → List String
  | .directory entries => featuresIn (above ++ [name]) entries
  | .file _ =>
    match stem? name with
    | some stem => ["/".intercalate (above ++ [stem])]
    | none => []

/-- The features of the entries of a directory. -/
def featuresIn (above : List String) : List (String × FileNode) → List String
  | [] => []
  | (name, node) :: rest => featuresOf above name node ++ featuresIn above rest

end

/-- The patches of a home directory; none if it has no patch directory. -/
def discover (files : FileTree) (home : String) : PatchFiles :=
  let root := joinPath home patchDirectory
  match files.node root with
  | .ok (.directory entries) =>
    ⟨some root, (featuresIn [] entries).foldl (fun b f => b.set f false) .empty⟩
  | _ => empty

def isPatch (p : PatchFiles) (feature : String) : Bool := p.applied.contains feature

def isApplied (p : PatchFiles) (feature : String) : Bool :=
  (p.applied.get? feature).getD false

/-- Marks a patch as applied; true only the first time. -/
def markApplied (p : PatchFiles) (feature : String) : Bool × PatchFiles :=
  match p.applied.get? feature with
  | some false => (true, { p with applied := p.applied.set feature true })
  | _ => (false, p)

/-- The path of a patch file. -/
def path? (p : PatchFiles) (feature : String) : Option String :=
  if p.isPatch feature then p.root.map fun root => joinPath root (feature ++ ".rb")
  else none

/-- The features in the order of their code points. -/
def features (p : PatchFiles) : List String := p.applied.names

def size (p : PatchFiles) : Nat := p.applied.size

end PatchFiles

end ObjectModel
