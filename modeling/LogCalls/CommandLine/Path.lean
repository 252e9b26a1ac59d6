/-! # Paths

Paths as they are given on the command line. They are shown as written, and compared by the steps
they consist of, so that `a//b` and `a/./b` are one path. -/

namespace LogCalls

/-- A step of a path. -/
inductive PathStep where
  /-- The start of an absolute path. -/
  | root
  /-- The directory itself; it only counts at the start of a path. -/
  | here
  /-- The directory above. -/
  | up
  | name (text : String)
  deriving DecidableEq, Repr

namespace PathStep

/-- The place of a kind of step among the others. -/
def rank : PathStep → Nat
  | root => 0
  | here => 1
  | up => 2
  | name _ => 3

/-- The order of steps: by kind, and names by their characters. -/
def compare : PathStep → PathStep → Ordering
  | name first, name second => compareOfLessAndEq first second
  | first, second => Ord.compare first.rank second.rank

/-- What a part of a path between slashes stands for, anywhere but at the start. -/
def ofPart? (part : String) : Option PathStep :=
  if part = "" || part = "." then none
  else if part = ".." then some .up
  else some (.name part)

end PathStep

/-- A path as it is written. -/
structure Path where
  text : String
  deriving DecidableEq, Repr

namespace Path

/-- The parts between slashes, some of which may be empty. -/
def parts (path : Path) : List String := (path.text.toList.splitOn '/').map String.ofList

/-- The steps of a path. -/
def steps (path : Path) : List PathStep :=
  match path.parts with
  | [] => []
  | first :: rest =>
    let start :=
      if first = "" then (if rest = [] then [] else [.root])
      else if first = "." then [.here]
      else (PathStep.ofPart? first).toList
    start ++ rest.filterMap PathStep.ofPart?

/-- The order of lists of steps. -/
def compareSteps : List PathStep → List PathStep → Ordering
  | [], [] => .eq
  | [], _ :: _ => .lt
  | _ :: _, [] => .gt
  | first :: rest, first' :: rest' => (first.compare first').then (compareSteps rest rest')

/-- The order of paths. -/
def compare (path other : Path) : Ordering := compareSteps path.steps other.steps

/-- Two ways to write the same path. -/
def isSame (path other : Path) : Bool := path.steps == other.steps

/-- The path starts at the root. -/
def isAbsolute (path : Path) : Bool := path.text.toList.head? == some '/'

/-- The path of something in the directory that the path names. No slash is put after another one, or
at the start. -/
def join (path : Path) (name : String) : Path :=
  if path.text.toList.getLast?.all (· = '/') then ⟨path.text ++ name⟩
  else ⟨path.text ++ "/" ++ name⟩

/-- The path of something further down in the directory that the path names. -/
def below (path : Path) (names : List String) : Path := names.foldl join path

/-- The last name of a path that ends in one. -/
def fileName? (path : Path) : Option String :=
  match path.steps.getLast? with
  | some (.name text) => some text
  | _ => none

/-- The last part of the path stands for the directory itself, so that the path can only name a
directory that is there already. -/
def endsHere (path : Path) : Bool := (path.parts.filter (· != "")).getLast? == some "."

end Path

namespace FileName

/-- A file name around its last dot; none if there is no dot but at the start. -/
def split? (name : String) : Option (String × String) :=
  match (name.toList.splitOn '.').reverse with
  | last :: before :: others =>
    let stem := List.intercalate ['.'] (before :: others).reverse
    if stem = [] then none else some (String.ofList stem, String.ofList last)
  | _ => none

/-- The name without its extension. -/
def stem (name : String) : String := ((split? name).map (·.1)).getD name

/-- What stands after the last dot. -/
def extension? (name : String) : Option String := (split? name).map (·.2)

/-- The name with another extension. -/
def withExtension (name extension : String) : String := stem name ++ "." ++ extension

end FileName

end LogCalls
