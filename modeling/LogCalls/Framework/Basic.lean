import LogCalls.Framework.Severity
import LogCalls.Message.Extraction

/-! # Logging frameworks

The frameworks that calls are recognised in and written for, and what each of them calls things. -/

namespace LogCalls

/-- Logging frameworks. -/
inductive Framework where
  | slf4j
  | log4j1
  | log4j2
  /-- The logging package of the platform, `java.util.logging`. -/
  | jul
  /-- Apache Commons Logging. -/
  | commons
  deriving DecidableEq, Repr

namespace Framework

/-- All frameworks. -/
def all : List Framework := [slf4j, log4j1, log4j2, jul, commons]

/-- The name of a framework. -/
def name : Framework → String
  | slf4j => "slf4j"
  | log4j1 => "log4j1"
  | log4j2 => "log4j2"
  | jul => "jul"
  | commons => "commons"

/-- The framework with exactly this name. -/
def ofName? (text : String) : Option Framework := all.find? (·.name == text)

/-- Further names that users know a framework by. -/
def aliases : List (String × Framework) :=
  [("log4j", log4j1), ("java.util.logging", jul), ("commons-logging", commons), ("jcl", commons)]

/-- The framework that a user names; case does not matter. -/
def parse (text : String) : Except Error Framework :=
  let lower := text.map Char.toLower
  match (ofName? lower).or (aliases.lookup lower) with
  | some framework => .ok framework
  | none => .error (.unknownFramework text)

/-- The class of loggers. -/
def loggerType : Framework → String
  | slf4j => "org.slf4j.Logger"
  | log4j1 => "org.apache.log4j.Logger"
  | log4j2 => "org.apache.logging.log4j.Logger"
  | jul => "java.util.logging.Logger"
  | commons => "org.apache.commons.logging.Log"

/-- The classes that declare the logging methods. -/
def loggerClasses : Framework → List String
  | log4j1 => ["org.apache.log4j.Logger", "org.apache.log4j.Category"]
  | other => [other.loggerType]

/-- The class that declares the usual accessor for loggers. -/
def factoryType : Framework → String
  | slf4j => "org.slf4j.LoggerFactory"
  | log4j1 => "org.apache.log4j.LogManager"
  | log4j2 => "org.apache.logging.log4j.LogManager"
  | jul => "java.util.logging.Logger"
  | commons => "org.apache.commons.logging.LogFactory"

/-- The classes that declare an accessor for loggers. -/
def factoryClasses : Framework → List String
  | log4j1 => ["org.apache.log4j.Logger", "org.apache.log4j.LogManager"]
  | other => [other.factoryType]

/-- The accessor for loggers. -/
def factoryMethod : Framework → String
  | commons => "getLog"
  | _ => "getLogger"

/-- Loggers are asked for by name and not by class. -/
def isKeyedByName : Framework → Bool
  | jul => true
  | _ => false

/-- The class of level constants. -/
def levelType? : Framework → Option String
  | jul => some "java.util.logging.Level"
  | log4j1 => some "org.apache.log4j.Level"
  | log4j2 => some "org.apache.logging.log4j.Level"
  | _ => none

/-- The class of markers. -/
def markerType? : Framework → Option String
  | slf4j => some "org.slf4j.Marker"
  | log4j2 => some "org.apache.logging.log4j.Marker"
  | _ => none

/-- The annotation that generates a logger field. -/
def loggerAnnotation : Framework → String
  | slf4j => "lombok.extern.slf4j.Slf4j"
  | log4j1 => "lombok.extern.log4j.Log4j"
  | log4j2 => "lombok.extern.log4j.Log4j2"
  | jul => "lombok.extern.java.Log"
  | commons => "lombok.extern.apachecommons.CommonsLog"

/-- How messages carry parameters. -/
def templateStyle : Framework → TemplateStyle
  | slf4j => .anonymous
  | log4j2 => .anonymous
  | jul => .indexed
  | log4j1 => .concatenation
  | commons => .concatenation

/-- The framework has a tier of its own for the severity. -/
def supports : Framework → Severity → Bool
  | slf4j, severity => severity != .fatal
  | jul, severity => severity != .fatal
  | _, _ => true

/-- The method that logs with a severity. -/
def methodFor : Framework → Severity → String
  | jul, .trace => "finer"
  | jul, .debug => "fine"
  | jul, .info => "info"
  | jul, .warn => "warning"
  | jul, .error => "severe"
  | jul, .fatal => "severe"
  | _, severity => severity.name

/-- The level constants that stand for severities, with the one to write for a severity first. -/
def levelConstants : Framework → List (String × Severity)
  | jul =>
    [("FINER", .trace), ("FINE", .debug), ("INFO", .info), ("WARNING", .warn), ("SEVERE", .error),
     ("FINEST", .trace), ("ALL", .trace), ("CONFIG", .info)]
  | log4j1 =>
    [("TRACE", .trace), ("DEBUG", .debug), ("INFO", .info), ("WARN", .warn), ("ERROR", .error),
     ("FATAL", .fatal), ("ALL", .trace)]
  | log4j2 =>
    [("TRACE", .trace), ("DEBUG", .debug), ("INFO", .info), ("WARN", .warn), ("ERROR", .error),
     ("FATAL", .fatal), ("ALL", .trace)]
  | _ => []

/-- The level constant to write for a severity. -/
def levelConstant? : Framework → Severity → Option String
  | jul, .fatal => some "SEVERE"
  | framework, severity => (framework.levelConstants.find? (·.2 == severity)).map (·.1)

/-- The severity that a level constant stands for. -/
def severityOfLevel? (framework : Framework) (constant : String) : Option Severity :=
  framework.levelConstants.lookup constant

/-- The name of a check that a severity is enabled. -/
def enabledName : Severity → String
  | .trace => "isTraceEnabled"
  | .debug => "isDebugEnabled"
  | .info => "isInfoEnabled"
  | .warn => "isWarnEnabled"
  | .error => "isErrorEnabled"
  | .fatal => "isFatalEnabled"

/-- The framework has a method of its own that checks for the severity. -/
def hasEnabledMethod : Framework → Severity → Bool
  | jul, _ => false
  | log4j1, severity => severity.rank ≤ Severity.info.rank
  | framework, severity => framework.supports severity

/-- The method that checks for one severity. -/
def enabledMethod? (framework : Framework) (severity : Severity) : Option String :=
  if framework.hasEnabledMethod severity then some (enabledName severity) else none

/-- The method that checks for a level given as argument. -/
def levelCheckMethod? : Framework → Option String
  | jul => some "isLoggable"
  | log4j1 => some "isEnabledFor"
  | log4j2 => some "isEnabled"
  | _ => none

/-- The framework whose class of loggers has this name. -/
def ofLoggerType? (fqn : String) : Option Framework := all.find? (·.loggerType == fqn)

/-- A framework is found by its name. -/
@[simp] theorem ofName?_name (framework : Framework) : ofName? framework.name = some framework := by
  cases framework <;> decide

/-- And by its logger type. -/
@[simp] theorem ofLoggerType?_loggerType (framework : Framework) :
    ofLoggerType? framework.loggerType = some framework := by
  cases framework <;> decide

end Framework

end LogCalls
