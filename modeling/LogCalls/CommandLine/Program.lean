import LogCalls.CommandLine.Arguments
import LogCalls.CommandLine.Batch

/-! # The program

What the program does with its arguments and with the files it has access to. -/

namespace LogCalls

/-- How the program ends. -/
structure Exit where
  code : Nat := 0
  /-- What it printed. -/
  output : String := ""
  /-- The lines it wrote to the error stream. -/
  errors : List String := []
  deriving DecidableEq, Repr

namespace Program

/-- The name and version of the program. -/
def version : String := "loglift 0.1.0"

/-- How the program is used. -/
def usage : String := "Usage: loglift [OPTIONS] <PATH>..."

/-- A description of the program and its options. -/
def help : String := textOfLines [
  "Normalizes Java logging calls in serialized compilation units",
  "",
  usage,
  "",
  "Arguments:",
  "  <PATH>...  Unit files or directories of .json units",
  "",
  "Options:",
  "      --config <FILE>       JSON configuration file; flags override its values",
  "      --target <FRAMEWORK>  Target framework: slf4j, log4j1, log4j2, jul or commons",
  "      --rules <NAMES>       Comma-separated rules to run (" ++
    joinWith ", " Configuration.ruleNames ++ ")",
  "      --max-cycles <N>      Rewrite cycles allowed per unit",
  "      --logger-name <NAME>  Name for injected logger fields",
  "      --no-add-logger       Never inject a logger field",
  "      --emit <FORMAT>       Output format: source or json [default: source]",
  "  -o, --output <DIR>        Write results here instead of stdout",
  "      --debug               Log every applied rewrite",
  "  -h, --help                Print help",
  "  -V, --version             Print version"]

/-- An error of the library is one of the program. -/
def check {α : Type} (result : Except Error α) : Except ProgramError α := result.mapError .library

/-- The configuration with the values of options in place of its own. -/
def override (settings : Settings) (configuration : Configuration) :
    Except Error Configuration := do
  let target ← settings.target.mapM Framework.parse
  let configuration := { configuration with
    target := target.getD configuration.target
    rules := (settings.rules.map (·.map fun rule => String.ofList (Text.trim rule.toList))).getD
      configuration.rules
    maxCycles := settings.maxCycles.getD configuration.maxCycles
    loggerName := settings.loggerName.getD configuration.loggerName
    addLoggerIfMissing := !settings.noAddLogger && configuration.addLoggerIfMissing }
  configuration.validate
  return configuration

/-- The output format that settings ask for. -/
def format (settings : Settings) : Except ProgramError OutputFormat :=
  match settings.emit with
  | none => .ok .source
  | some text =>
    match OutputFormat.ofName? text with
    | some format => .ok format
    | none => .error (.unknownFormat text.toLower)

variable {m : Type → Type} [Monad m] [FileAccess m]

/-- The configuration in a file, or the default without one. -/
def baseConfiguration : Option Path → ExceptT ProgramError m Configuration
  | none => return {}
  | some path => do
      match (← FileAccess.read (m := m) path).toOption.map Configuration.ofText with
      | some (.ok configuration) => return configuration
      | _ => throw (.configurationFile path)

/-- The configuration that settings ask for. -/
def configuration (settings : Settings) : ExceptT ProgramError m Configuration := do
  let base ← baseConfiguration settings.config
  ExceptT.mk (pure (check (override settings base)))

/-- Do what the settings ask for. The words of the reader of documents are given. -/
def runSettings (wording : String → String) (settings : Settings) : ExceptT ProgramError m BatchReport := do
  let configuration ← configuration settings
  let format ← ExceptT.mk (pure (format settings))
  let files ← UnitFile.collect settings.inputs
  if files.isEmpty then throw .noUnits
  let batch : Batch := { configuration, format, output := settings.output, wording }
  batch.run files

/-- The line for an error that ends the program. -/
def errorLine (error : ProgramError) : String := "Error: " ++ error.message

/-- How the program ends after a batch. -/
def exitOf : Except ProgramError BatchReport → Exit
  | .error error => { code := 1, errors := [errorLine error] }
  | .ok report =>
    if report.summary.success then { output := report.printed, errors := report.lines }
    else {
      code := 1, output := report.printed
      errors := report.lines ++ [errorLine (.unitsFailed report.summary.errors.length)] }

/-- Run the program. -/
def run (wording : String → String) (arguments : List String) : m Exit :=
  match Invocation.parse arguments with
  | .misuse => return { code := 2, errors := [usage] }
  | .help => return { output := help }
  | .version => return { output := version ++ "\n" }
  | .run settings => do return exitOf (← (runSettings wording settings).run)

end Program

end LogCalls
