import LogCalls.Rule.ChangeLevel
import LogCalls.Rule.CompleteException
import LogCalls.Rule.LevelMethod
import LogCalls.Rule.LoggerDeclaration
import LogCalls.Rule.Migrate
import LogCalls.Rule.Parameterize
import LogCalls.Rule.Redirect
import LogCalls.Rule.SpreadArray

/-! # Configurations

What a user sets, and the rules that follow from it. -/

namespace LogCalls

/-- Settings. -/
structure Configuration where
  /-- The framework that calls are written for. -/
  target : Framework := .slf4j
  /-- The names of the rules to run. -/
  rules : List String := ["system-print", "migrate", "parameterize-messages"]
  /-- The budget of cycles for a unit. -/
  maxCycles : Nat := 10
  /-- The name of new logger fields. -/
  loggerName : String := "logger"
  addLoggerIfMissing : Bool := true
  /-- The severity of what is written to standard output. -/
  consoleSeverity : Severity := .info
  severityPolicy : SeverityPolicy := {}
  /-- Replace a request for the attached exception's message by the exception itself. -/
  collapseErrorAccessors : Bool := false
  /-- Pass `x` and not `x.toString()` as an argument of a template. -/
  stripToString : Bool := false
  /-- Only calls that this pattern selects get templates. -/
  methodPattern : Option String := none
  changeLevel : Option ChangeLevel := none

namespace Configuration

/-- A character that an identifier may start with. -/
def isIdentifierStart (c : Char) : Bool := Text.isAlphabetic c || c == '_'

/-- A character that an identifier may go on with. -/
def isIdentifierPart (c : Char) : Bool :=
  Text.isAlphabetic c || Text.isNumeral c || c == '_' || c == '$'

/-- The text is an identifier. -/
def isIdentifier (text : String) : Bool :=
  text.toList.head?.any isIdentifierStart && text.toList.all isIdentifierPart

/-- Refuse a configuration that makes no sense. -/
def validate (configuration : Configuration) : Except Error Unit :=
  if configuration.maxCycles = 0 then .error (.configuration .noCycles)
  else if isIdentifier configuration.loggerName then .ok ()
  else .error (.configuration (.invalidLoggerName configuration.loggerName))

/-- How calls are recognised under the configuration. -/
def recognizeOptions (configuration : Configuration) : RecognizeOptions where
  consoleSeverity := configuration.consoleSeverity
  collapseAccessors := configuration.collapseErrorAccessors

/-- How console writes and stack traces are redirected under the configuration. -/
def redirect (configuration : Configuration) : Redirect where
  target := configuration.target
  loggerPolicy := {
    fieldName := configuration.loggerName, addIfMissing := configuration.addLoggerIfMissing }
  severityPolicy := configuration.severityPolicy
  recognize := configuration.recognizeOptions

/-- How loggers are migrated under the configuration. -/
def migrate (configuration : Configuration) : Migrate :=
  { Migrate.toward configuration.target with
    severityPolicy := configuration.severityPolicy
    recognize := configuration.recognizeOptions }

/-- How messages get templates under the configuration. -/
def parameterize (configuration : Configuration) : Except Error Parameterize := do
  let pattern ← configuration.methodPattern.mapM (MethodPattern.parse Glob.sizeLimit)
  return {
    pattern, stripToString := configuration.stripToString
    collapseAccessors := configuration.collapseErrorAccessors }

/-- The names of all rules. -/
def ruleNames : List String :=
  ["parameterize-messages", "print-stack-trace", "console", "system-print", "migrate",
   "enclosing-class", "complete-exception", "change-level", "level-method", "constant-message",
   "array-to-varargs", "private-loggers"]

/-- The rule of a given name. -/
def buildRule (configuration : Configuration) : String → Except Error Rule
  | "parameterize-messages" => configuration.parameterize.map (·.rule)
  | "print-stack-trace" => .ok configuration.redirect.stackTraceRule
  | "console" => .ok configuration.redirect.consoleRule
  | "system-print" => .ok configuration.redirect.rule
  | "migrate" => .ok configuration.migrate.rule
  | "enclosing-class" => .ok EnclosingClass.rule
  | "complete-exception" => .ok CompleteException.rule
  | "change-level" =>
    match configuration.changeLevel with
    | some settings => .ok settings.rule
    | none => .error (.configuration .missingLevelChange)
  | "level-method" => .ok LevelMethod.rule
  | "constant-message" => .ok ConstantMessage.rule
  | "array-to-varargs" => .ok SpreadArray.rule
  | "private-loggers" => .ok PrivateLogger.rule
  | other => .error (.unknownRule other)

/-- The rules that the configuration names, in that order. -/
def buildRules (configuration : Configuration) : Except Error (List Rule) :=
  configuration.rules.mapM configuration.buildRule

end Configuration

end LogCalls
