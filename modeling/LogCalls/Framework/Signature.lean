import LogCalls.Framework.Basic

/-! # Signatures

The methods whose calls are recognised, found by the class that declares them and their name. -/

namespace LogCalls

/-- What a recognised call does. -/
inductive CallShape where
  /-- Logs with the severity that the method stands for. -/
  | leveled (severity : Severity)
  /-- Logs with the level that is its first argument. -/
  | levelArgument
  /-- Prints the stack trace of an exception. -/
  | stackTrace
  /-- Writes to a print stream. -/
  | console
  /-- Asks for a logger. -/
  | factory
  /-- Checks whether a severity is enabled. -/
  | enabledCheck (severity : Severity)
  /-- Checks whether the level that is its argument is enabled. -/
  | levelCheck
  deriving DecidableEq, Repr

/-- A recognised method: what it does, and the framework it belongs to. -/
structure Signature where
  framework : Option Framework
  shape : CallShape
  deriving DecidableEq, Repr

namespace Framework

/-- The methods of the framework's loggers. -/
def loggerMethods (framework : Framework) : List (String × CallShape) :=
  (Severity.all.filter framework.supports).map (fun severity =>
    (framework.methodFor severity, .leveled severity)) ++
  (Severity.all.filter framework.hasEnabledMethod).map (fun severity =>
    (enabledName severity, .enabledCheck severity)) ++
  framework.levelCheckMethod?.toList.map (fun method => (method, .levelCheck)) ++
  match framework with
    | jul => [("finest", .leveled .trace), ("config", .leveled .info), ("log", .levelArgument)]
    | log4j2 => [("log", .levelArgument)]
    | _ => []

/-- What a method that a class declares does in this framework. -/
def shape? (framework : Framework) (declaringType method : String) : Option CallShape :=
  if framework.factoryClasses.contains declaringType && method == framework.factoryMethod then
    some .factory
  else if framework.loggerClasses.contains declaringType then framework.loggerMethods.lookup method
  else none

end Framework

namespace Signature

/-- The methods outside of any framework. -/
def platform? (declaringType method : String) : Option CallShape :=
  if declaringType = ClassName.throwable && method = "printStackTrace" then some .stackTrace
  else if declaringType = ClassName.printStream && (method = "print" || method = "println") then
    some .console
  else none

/-- The recognised method of this name in this class. -/
def find? (declaringType method : String) : Option Signature :=
  match Framework.all.findSome? fun framework =>
      (framework.shape? declaringType method).map ({ framework := some framework, shape := · }) with
  | some signature => some signature
  | none => (platform? declaringType method).map ({ framework := none, shape := · })

end Signature

end LogCalls
