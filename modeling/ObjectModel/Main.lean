/-
The program.

Takes a snapshot of the directories that the arguments name, and leaves all
else to the command line.
-/
import ObjectModel.CommandLine

namespace ObjectModel

/-- A directory or file as it is on disk; what cannot be read is left out. -/
partial def snapshotNode (path : String) : IO (Option FileNode) := do
  try
    let real ← IO.FS.realPath path
    if ← real.isDir then
      let found ← real.readDir
      let mut entries : List (String × FileNode) := []
      for e in found do
        if let some node ← snapshotNode e.path.toString then
          entries := entries ++ [(e.fileName, node)]
      return some (.directory entries)
    else
      return some (.file (← IO.FS.readFile real))
  catch _ => return none

/-- The tree with every directory on a path present, and the names that lead
to the path's end. -/
def openPath : List String → List String → FileNode → List String × FileNode
  | here, [], tree => (here, tree)
  | here, "." :: rest, tree => openPath here rest tree
  | here, ".." :: rest, tree => openPath here.dropLast rest tree
  | here, name :: rest, tree =>
    let here := here ++ [name]
    let tree :=
      if (tree.descend? here).isSome then tree
      else FileNode.insert .emptyDirectory here tree
    openPath here rest tree

/-- The tree with what is at a path on disk. -/
def addSnapshot (workingDirectory : List String) (tree : FileNode) (path : String) :
    IO FileNode := do
  match ← snapshotNode path with
  | none => return tree
  | some node =>
    let start := if path.startsWith "/" then [] else workingDirectory
    let (names, tree) := openPath start (pathNames path) tree
    return FileNode.insert node names tree

/-- The files below the paths that the arguments name. -/
def snapshot (args : List String) : IO FileTree := do
  let here := pathNames (← IO.currentDir).toString
  match CommandLine.read .none args with
  | .run a =>
    let wanted := [a.coreLoadPath, a.home].filterMap id
    let root ← wanted.foldlM (addSnapshot here) FileNode.emptyDirectory
    return ⟨root, here⟩
  | _ => return ⟨.emptyDirectory, here⟩

end ObjectModel

def main (args : List String) : IO UInt32 := do
  let files ← ObjectModel.snapshot args
  let result := ObjectModel.CommandLine.run files args
  IO.print result.output
  IO.eprint result.errors
  return result.status.toUInt32
