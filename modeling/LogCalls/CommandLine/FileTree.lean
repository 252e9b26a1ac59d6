import LogCalls.CommandLine.Path

/-! # Files

What the program needs of a file system, and a tree of files in memory that offers it. -/

namespace LogCalls

/-- What a path may lead to. -/
inductive EntryKind where
  | file
  | directory
  deriving DecidableEq, Repr

/-- Why a file cannot be read. -/
inductive FileFault where
  | missing
  /-- A file stands where a directory is needed. -/
  | notDirectory
  /-- There is a directory in place of the file. -/
  | isDirectory
  | other (words : String)
  deriving DecidableEq, Repr

/-- What the system says. -/
def FileFault.message : FileFault → String
  | missing => "No such file or directory (os error 2)"
  | notDirectory => "Not a directory (os error 20)"
  | isDirectory => "Is a directory (os error 21)"
  | other words => words

/-- Access to files. -/
class FileAccess (m : Type → Type) where
  /-- What the path leads to, if anything. -/
  kind? : Path → m (Option EntryKind)
  /-- The files at any depth below a directory, each by the names that lead to it. -/
  filesBelow : Path → m (List (List String))
  /-- The text of a file, or why it cannot be read. -/
  read : Path → m (Except FileFault String)
  /-- Make a directory and all those above it; false if that is not possible. -/
  makeDirectories : Path → m Bool
  /-- Write a file; false if that is not possible. -/
  write : Path → String → m Bool

/-- Files and directories, each by the names that lead to it. What leads to one of them is a directory
as well. -/
structure FileTree where
  files : List (List String × String) := []
  directories : List (List String) := []
  /-- The directory where paths start that are not absolute. -/
  home : List String := []
  deriving DecidableEq, Repr

namespace FileTree

/-- There is a directory of these names. -/
def hasDirectory (tree : FileTree) (names : List String) : Bool :=
  names.isEmpty || tree.directories.any names.isPrefixOf ||
    tree.files.any fun (file, _) => names.isPrefixOf file && names.length < file.length

/-- The text of the file of these names. -/
def text? (tree : FileTree) (names : List String) : Option String := tree.files.lookup names

/-- What these names lead to. -/
def kindAt? (tree : FileTree) (names : List String) : Option EntryKind :=
  if tree.hasDirectory names then some .directory
  else (tree.text? names).map fun _ => .file

/-- Where a path starts. -/
def start (tree : FileTree) (path : Path) : List String :=
  if path.isAbsolute then [] else tree.home

/-- Follow the parts of a path from a directory. Each part has to start from a directory, but the last
one need not lead to anything. -/
def follow (tree : FileTree) (names : List String) : List String → Except FileFault (List String)
  | [] => .ok names
  | part :: rest =>
    if tree.hasDirectory names then
      match PathStep.ofPart? part with
      | some (.name text) => tree.follow (names ++ [text]) rest
      | some .up => tree.follow names.dropLast rest
      | _ => tree.follow names rest
    else .error (if (tree.text? names).isSome then .notDirectory else .missing)

/-- Where a path leads. The empty path leads nowhere. -/
def locate (tree : FileTree) (path : Path) : Except FileFault (List String) :=
  if path.text = "" then .error .missing else tree.follow (tree.start path) path.parts

/-- What a path leads to. -/
def kind? (tree : FileTree) (path : Path) : Option EntryKind :=
  (tree.locate path).toOption.bind tree.kindAt?

/-- The text of the file that a path leads to. -/
def read (tree : FileTree) (path : Path) : Except FileFault String := do
  let names ← tree.locate path
  match tree.text? names with
  | some text => .ok text
  | none => .error (if tree.hasDirectory names then .isDirectory else .missing)

/-- The files below a directory, each by the names that lead to it from there. -/
def filesBelow (tree : FileTree) (names : List String) : List (List String) :=
  tree.files.filterMap fun (file, _) =>
    if names.isPrefixOf file && names.length < file.length then some (file.drop names.length)
    else none

/-- Follow the parts of a path from a directory, and make the directories that are missing. -/
def makeAlong (tree : FileTree) (names : List String) : List String → Option FileTree
  | [] => some tree
  | part :: rest =>
    match PathStep.ofPart? part with
    | some (.name text) =>
      let next := names ++ [text]
      match tree.kindAt? next with
      | some .file => none
      | some .directory => tree.makeAlong next rest
      | none => makeAlong { tree with directories := tree.directories ++ [next] } next rest
    | some .up => tree.makeAlong names.dropLast rest
    | _ => tree.makeAlong names rest

/-- The tree with a directory and all those above it. -/
def makeDirectories? (tree : FileTree) (path : Path) : Option FileTree :=
  if path.endsHere then
    match tree.kind? path with
    | some .directory => some tree
    | _ => none
  else tree.makeAlong (tree.start path) path.parts

/-- The files with the text of one of them replaced, or with a new one. -/
def put (names : List String) (text : String) :
    List (List String × String) → List (List String × String)
  | [] => [(names, text)]
  | (file, old) :: rest =>
    if file = names then (names, text) :: rest else (file, old) :: put names text rest

/-- The tree with a file written. -/
def write? (tree : FileTree) (path : Path) (text : String) : Option FileTree := do
  let names ← (tree.locate path).toOption
  if tree.hasDirectory names || !tree.hasDirectory names.dropLast then none
  else some { tree with files := put names text tree.files }

/-- The files that are new or have another text than in an earlier tree. -/
def changedSince (tree earlier : FileTree) : List (List String × String) :=
  tree.files.filter fun (names, text) => earlier.text? names != some text

/-- Change the state if that is possible, and tell whether it was. -/
def attempt (change : FileTree → Option FileTree) : StateM FileTree Bool := fun tree =>
  match change tree with
  | some changed => (true, changed)
  | none => (false, tree)

instance : FileAccess (StateM FileTree) where
  kind? path := fun tree => (tree.kind? path, tree)
  filesBelow path := fun tree => (((tree.locate path).toOption.map tree.filesBelow).getD [], tree)
  read path := fun tree => (tree.read path, tree)
  makeDirectories path := attempt (·.makeDirectories? path)
  write path text := attempt (·.write? path text)

end FileTree

end LogCalls
