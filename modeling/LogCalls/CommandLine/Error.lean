import LogCalls.CommandLine.Path
import LogCalls.Error

/-! # Errors of the program

Why the program stops, by cause, and the wording in which it says so. -/

namespace LogCalls

/-- Why the program stops. -/
inductive ProgramError where
  /-- An error of the library. -/
  | library (cause : Error)
  /-- A configuration file cannot be used. -/
  | configurationFile (path : Path)
  | unknownFormat (name : String)
  | missingInput (path : Path)
  /-- The directories hold no units. -/
  | noUnits
  /-- Two files would have their results in the same place. -/
  | collision (first second target : Path)
  | outputDirectory (path : Path)
  | directory (path : Path)
  | unwritable (path : Path)
  /-- Some units could not be transformed. -/
  | unitsFailed (count : Nat)
  deriving DecidableEq, Repr

/-- The wording of an error. -/
def ProgramError.message : ProgramError → String
  | library cause => cause.message
  | configurationFile path => "Failed to load " ++ path.text
  | unknownFormat name =>
    "unknown emit format " ++ Text.quoted name ++ ", expected source or json"
  | missingInput path => "input " ++ path.text ++ " does not exist"
  | noUnits => "no .json units found"
  | collision first second target =>
    first.text ++ " and " ++ second.text ++ " would both be written to " ++ target.text
  | outputDirectory path => "Failed to create output directory " ++ path.text
  | directory path => "Failed to create directory " ++ path.text
  | unwritable path => "Failed to write " ++ path.text
  | unitsFailed count => toString count ++ " units could not be rewritten"

end LogCalls
