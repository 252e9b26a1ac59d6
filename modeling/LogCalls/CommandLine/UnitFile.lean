import LogCalls.CommandLine.Error
import LogCalls.CommandLine.FileTree
import LogCalls.Interchange.Document
import LogCalls.Tree.Source

/-! # Files of units

The files that hold units, and where their results belong. A path to a file stands for that file; a
path to a directory stands for all `.json` files below it. -/

namespace LogCalls

/-- How units are written. -/
inductive OutputFormat where
  /-- As source text. -/
  | source
  /-- As a document that can be read again. -/
  | document
  deriving DecidableEq, Repr

namespace OutputFormat

/-- The extension of files in the format. -/
def extension : OutputFormat → String
  | source => "java"
  | document => "json"

/-- The format of a name, in any case. -/
def ofName? (text : String) : Option OutputFormat :=
  let name := text.toLower
  if name = "source" || name = "java" then some .source
  else if name = "json" then some .document
  else none

/-- The text of a unit. -/
def render : OutputFormat → CompilationUnit → String
  | source, unit => unit.source
  | document, unit => unit.document

end OutputFormat

/-- A file with a unit, and where its result belongs below the output directory. -/
structure UnitFile where
  path : Path
  /-- The names that lead to the file from the directory it was found in. -/
  relative : List String
  deriving DecidableEq, Repr

namespace UnitFile

/-- Files come in the order of their paths. -/
def precedes (file other : UnitFile) : Bool :=
  match file.path.compare other.path with
  | .lt => true
  | .gt => false
  | .eq =>
    Path.compareSteps (file.relative.map .name) (other.relative.map .name) != .gt

/-- Of files that follow each other and have the same path, only the first is kept. -/
def dropRepeated : List UnitFile → List UnitFile
  | [] => []
  | first :: rest =>
    match dropRepeated rest with
    | [] => [first]
    | second :: others =>
      if first.path.isSame second.path then first :: others else first :: second :: others

/-- The file is one of those looked for in directories. -/
def isUnitName (names : List String) : Bool :=
  names.getLast?.any fun name => FileName.extension? name == some "json"

/-- The files in sorted order, each path once. -/
def sorted (files : List UnitFile) : List UnitFile := dropRepeated (files.mergeSort precedes)

variable {m : Type → Type} [Monad m] [FileAccess m]

/-- The files that a path leads to. -/
def ofPath (path : Path) : ExceptT ProgramError m (List UnitFile) := do
  match ← FileAccess.kind? (m := m) path with
  | some .directory =>
    let found ← FileAccess.filesBelow (m := m) path
    return (found.filter isUnitName).map fun names => { path := path.below names, relative := names }
  | some .file => return [{ path, relative := [path.fileName?.getD path.text] }]
  | none => throw (.missingInput path)

/-- The files that paths lead to, sorted. -/
def collect (paths : List Path) : ExceptT ProgramError m (List UnitFile) := do
  return sorted (← paths.mapM ofPath).flatten

/-- Where the result of a file belongs. -/
def target (file : UnitFile) (directory : Path) (format : OutputFormat) : Path :=
  directory.below (file.relative.dropLast ++
    (file.relative.getLast?.map (FileName.withExtension · format.extension)).toList)

end UnitFile

end LogCalls
