/-
Files and directories.

A snapshot of a file system: a directory holds files with a text and further
directories, each under a name. Paths are followed from the root, through the
working directory if they do not start with a slash. A step into something
that is not a directory fails, and so does a step to a name that is not there.

What is opened is named by its path in one piece, which has to be shorter than
`FileTree.pathLimit`. Only finding out what a path leads to goes from name to
name, and there only the names are limited.
-/

namespace ObjectModel

/-- Why a file cannot be had. -/
inductive FileError where
  | noSuchFile
  | notADirectory
  | isADirectory
  | nameTooLong
  | embeddedNul
  /-- A failure with a text of its own. -/
  | other (text : String)
deriving DecidableEq

def FileError.message : FileError → String
  | .noSuchFile => "No such file or directory (os error 2)"
  | .notADirectory => "Not a directory (os error 20)"
  | .isADirectory => "Is a directory (os error 21)"
  | .nameTooLong => "File name too long (os error 36)"
  | .embeddedNul => "file name contained an unexpected NUL byte"
  | .other text => text

/-- A file with its text, or a directory. -/
inductive FileNode where
  | file (text : String)
  | directory (entries : List (String × FileNode))
deriving Inhabited

namespace FileNode

def emptyDirectory : FileNode := .directory []

def isDirectory : FileNode → Bool
  | .directory _ => true
  | .file _ => false

/-- The entry of that name. -/
def find? (name : String) : List (String × FileNode) → Option FileNode
  | [] => none
  | (key, node) :: rest => if key = name then some node else find? name rest

/-- Entries with one of them put in or replaced. -/
def put (name : String) (node : FileNode) : List (String × FileNode) → List (String × FileNode)
  | [] => [(name, node)]
  | (key, old) :: rest =>
    if key = name then (key, node) :: rest else (key, old) :: put name node rest

/-- The tree with a node put at a path, directories made on the way. -/
def insert (node : FileNode) : List String → FileNode → FileNode
  | [], _ => node
  | name :: rest, tree =>
    let entries :=
      match tree with
      | .directory entries => entries
      | .file _ => []
    .directory (put name (insert node rest ((find? name entries).getD emptyDirectory)) entries)

/-- The node at a path of names. -/
def descend? : FileNode → List String → Option FileNode
  | node, [] => some node
  | .file _, _ :: _ => none
  | .directory entries, name :: rest => (find? name entries).bind (descend? · rest)

end FileNode

/-- The pieces of a text between slashes. -/
def splitSlashes : List Char → List (List Char)
  | [] => [[]]
  | c :: rest =>
    if c = '/' then [] :: splitSlashes rest
    else
      match splitSlashes rest with
      | [] => [[c]]
      | piece :: pieces => (c :: piece) :: pieces

/-- The names on a path; a slash at the end asks for a directory, as a dot
would. -/
def pathNames (path : String) : List String :=
  let pieces := splitSlashes path.toList
  let names := (pieces.filter (!·.isEmpty)).map String.ofList
  if 1 < pieces.length ∧ pieces.getLast? = some [] then names ++ ["."] else names

/-- An absolute path from names. -/
def absolutePath (names : List String) : String :=
  match names with
  | [] => "/"
  | _ => String.join (names.map ("/" ++ ·))

/-- A path put behind another, as a file system does it. -/
def joinPath (base path : String) : String :=
  if path.startsWith "/" then path
  else if base.isEmpty || base.endsWith "/" then base ++ path
  else base ++ "/" ++ path

/-- A file system: its root, and the names that lead to the working
directory. -/
structure FileTree where
  root : FileNode
  workingDirectory : List String
deriving Inhabited

namespace FileTree

/-- A file system with only one directory, in which texts and empty directories
are put at paths from it. -/
def ofTexts (base : String) (directories : List String) (texts : List (String × String)) :
    FileTree :=
  let place (path : String) (node : FileNode) (tree : FileNode) :=
    FileNode.insert node ((pathNames base ++ pathNames path).filter (· ≠ ".")) tree
  let bare := place "" .emptyDirectory .emptyDirectory
  let made := directories.foldl (fun tree path => place path .emptyDirectory tree) bare
  ⟨texts.foldl (fun tree (path, text) => place path (.file text) tree) made, []⟩

/-- Follows names from a directory, given by the names that lead to it in
reverse. -/
def walk (t : FileTree) : List String → List String → Except FileError (List String)
  | here, [] => .ok here
  | here, name :: rest =>
    match t.root.descend? here.reverse with
    | none => .error .noSuchFile
    | some (.file _) => .error .notADirectory
    | some (.directory entries) =>
      if name = "." then walk t here rest
      else if name = ".." then walk t here.tail rest
      else if 255 < name.utf8ByteSize then .error .nameTooLong
      else
        match FileNode.find? name entries with
        | none => .error .noSuchFile
        | some _ => walk t (name :: here) rest

/-- The bytes that a path to open may not reach. -/
def pathLimit : Nat := 4096

/-- The names that lead to what a path denotes, without dots. -/
def resolve (t : FileTree) (path : String) : Except FileError (List String) :=
  if path.toList.contains '\x00' then .error .embeddedNul
  else if path.isEmpty then .error .noSuchFile
  else
    let start := if path.startsWith "/" then [] else t.workingDirectory.reverse
    (t.walk start (pathNames path)).map List.reverse

/-- The absolute path without dots of something that exists. -/
def canonicalize (t : FileTree) (path : String) : Except FileError String :=
  (t.resolve path).map absolutePath

/-- What is opened under a path. A path that is too long fails as such, whatever
it leads to; a NUL in it comes first. -/
def node (t : FileTree) (path : String) : Except FileError FileNode :=
  if pathLimit ≤ path.utf8ByteSize ∧ !path.toList.contains '\x00' then .error .nameTooLong
  else
    match t.resolve path with
    | .error e => .error e
    | .ok names =>
      match t.root.descend? names with
      | some node => .ok node
      | none => .error .noSuchFile

/-- The text of a file. -/
def readText (t : FileTree) (path : String) : Except FileError String :=
  match t.node path with
  | .error e => .error e
  | .ok (.file text) => .ok text
  | .ok (.directory _) => .error .isADirectory

end FileTree

end ObjectModel
