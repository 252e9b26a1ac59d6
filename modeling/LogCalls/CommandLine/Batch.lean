import LogCalls.CommandLine.Report
import LogCalls.CommandLine.UnitFile

/-! # Batches

Many units at once. Each unit is transformed by itself, so they may be finished in any order; results
are written in the order of the inputs once all are done. A unit that cannot be transformed is reported
and skipped. -/

namespace LogCalls

/-- What to do with units. -/
structure Batch where
  configuration : Configuration
  format : OutputFormat := .source
  /-- The directory for results; without one they are printed. -/
  output : Option Path := none
  /-- What the reader of documents says about a text that is no unit. -/
  wording : String → String

namespace Batch

/-- A unit that is done with: its place among the inputs, its file, and what became of it. -/
structure Finished where
  index : Nat
  file : UnitFile
  result : Except FileStatus Outcome

/-- What becomes of the unit in a file with the given text. A unit that does not say where it comes
from gets the path of its file. -/
def transform (batch : Batch) (engine : Engine) (path : Path) (text : Except FileFault String) :
    Except FileStatus Outcome :=
  match text with
  | .error fault => .error (.failed ("Failed to read " ++ path.text ++ ": " ++ fault.message))
  | .ok text =>
    match CompilationUnit.ofText text with
    | .error _ => .error (.failed ("Failed to parse " ++ path.text ++ ": " ++ batch.wording text))
    | .ok unit =>
      let unit := { unit with sourcePath := unit.sourcePath.or (some path.text) }
      (engine.transform engine.startStatistics unit).1.mapError FileStatus.ofError

/-- Two files whose results would be in the same place: the first pair of them, with the place. -/
def collision? (directory : Path) (format : OutputFormat) :
    (seen : List UnitFile) → List UnitFile → Option ProgramError
  | _, [] => none
  | seen, file :: rest =>
    let target := file.target directory format
    match seen.find? fun earlier => (earlier.target directory format).isSame target with
    | some earlier => some (.collision earlier.path file.path target)
    | none => collision? directory format (seen ++ [file]) rest

/-- Units that were finished in any order, in the order of the inputs. -/
def inInputOrder (finished : List Finished) : List Finished :=
  finished.mergeSort fun first second => decide (first.index ≤ second.index)

variable {m : Type → Type} [Monad m] [FileAccess m]

/-- Write the result of one unit, or add it to what is printed. -/
def emit (batch : Batch) (file : UnitFile) (outcome : Outcome) (report : BatchReport) :
    ExceptT ProgramError m BatchReport := do
  let rendered := batch.format.render outcome.unit
  match batch.output with
  | some directory =>
    let parent := directory.below file.relative.dropLast
    let target := file.target directory batch.format
    if !(← FileAccess.makeDirectories (m := m) parent) then throw (.directory parent)
    if !(← FileAccess.write (m := m) target rendered) then throw (.unwritable target)
    return report.addOutcome file.path outcome (some target)
  | none =>
    return { report.addOutcome file.path outcome none with
      printed := report.printed ++ "// " ++ file.path.text ++ "\n" ++ rendered ++ "\n" }

/-- Report on units in order, and write the results of those that were transformed. -/
def deliver (batch : Batch) (finished : List Finished) : ExceptT ProgramError m BatchReport :=
  (inInputOrder finished).foldlM (fun report unit =>
    match unit.result with
    | .ok outcome => batch.emit unit.file outcome report
    | .error status => return report.addFailure unit.file.path status) {}

/-- Refuse a batch that cannot work, and make the output directory. -/
def prepare (batch : Batch) (files : List UnitFile) : ExceptT ProgramError m Engine := do
  let checked := do
    batch.configuration.validate
    Engine.ofConfiguration batch.configuration
  let engine ← ExceptT.mk (pure (checked.mapError .library))
  if let some directory := batch.output then
    if let some error := collision? directory batch.format [] files then throw error
    if !(← FileAccess.makeDirectories (m := m) directory) then throw (.outputDirectory directory)
  return engine

/-- Read and transform units. -/
def transformAll (batch : Batch) (engine : Engine) (files : List UnitFile) : m (List Finished) :=
  files.zipIdx.mapM fun (file, index) => do
    let text ← FileAccess.read file.path
    return { index, file, result := batch.transform engine file.path text }

/-- Transform the units in the given files and write the results. -/
def run (batch : Batch) (files : List UnitFile) : ExceptT ProgramError m BatchReport := do
  let engine ← batch.prepare files
  let finished ← batch.transformAll (m := m) engine files
  batch.deliver finished

end Batch

end LogCalls
