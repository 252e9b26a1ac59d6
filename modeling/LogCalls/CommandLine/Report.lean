import LogCalls.CommandLine.Path
import LogCalls.Engine.Basic

/-! # Reports

How the files of a batch fared, in words. -/

namespace LogCalls

/-- How a file fared. -/
inductive FileStatus where
  | changed (replacements : Nat)
  | unchanged
  /-- The unit was still changing when the budget of cycles was used up. -/
  | nonConvergent (cycles : Nat)
  | failed (reason : String)
  deriving DecidableEq, Repr

namespace FileStatus

/-- The status in words. -/
def message : FileStatus → String
  | changed replacements => "changed (" ++ toString replacements ++ " rewrites)"
  | unchanged => "unchanged"
  | nonConvergent cycles => "did not converge after " ++ toString cycles ++ " cycles"
  | failed reason => "failed: " ++ reason

/-- The status of a unit that was transformed. -/
def ofSummary (summary : Summary) : FileStatus :=
  if summary.unitsChanged = 0 then .unchanged else .changed summary.replacements

/-- The status of a unit that was not, because of an error. -/
def ofError : Error → FileStatus
  | .nonConvergence _ cycles => .nonConvergent cycles
  | other => .failed other.message

end FileStatus

/-- What is said about one file. -/
structure FileReport where
  path : Path
  status : FileStatus
  /-- Where the result was written, if it went to a file. -/
  writtenTo : Option Path := none
  deriving DecidableEq, Repr

/-- The line of the report for the file. -/
def FileReport.line (report : FileReport) : String := report.path.text ++ ": " ++ report.status.message

/-- What is said about a batch. -/
structure BatchReport where
  files : List FileReport := []
  summary : Summary := {}
  /-- The results that go to standard output. -/
  printed : String := ""
  deriving DecidableEq, Repr

namespace BatchReport

/-- The report with one more file that was transformed. -/
def addOutcome (report : BatchReport) (path : Path) (outcome : Outcome) (writtenTo : Option Path) :
    BatchReport :=
  { report with
    files := report.files ++ [{ path, status := .ofSummary outcome.summary, writtenTo }]
    summary := report.summary.merge outcome.summary }

/-- The report with a file that was not transformed. -/
def addFailure (report : BatchReport) (path : Path) (status : FileStatus) : BatchReport :=
  let failure : FileReport := { path, status }
  { report with
    files := report.files ++ [failure]
    summary := { report.summary with errors := report.summary.errors ++ [failure.line] } }

/-- The lines of the report. -/
def lines (report : BatchReport) : List String :=
  report.files.map FileReport.line ++
    [toString report.files.length ++ " files, " ++ toString report.summary.unitsChanged ++
      " changed, " ++ toString report.summary.replacements ++ " rewrites"]

end BatchReport

end LogCalls
