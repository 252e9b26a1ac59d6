import LogCalls.CallSite.Signature

/-! # Calls that log

Calls that report something: calls of a framework's logging methods, writes to the console, and
printed stack traces. Whatever cannot be recognised for certain is not recognised. -/

namespace LogCalls

/-- The console streams. -/
inductive ConsoleStream where
  | out
  | err
  deriving DecidableEq, Repr

/-- Where a report comes from. -/
inductive LogOrigin where
  /-- A call of a framework's logging method. -/
  | framework (called : Framework)
  /-- A printed stack trace. -/
  | stackTrace
  /-- A write to the console. -/
  | console (stream : ConsoleStream)
  deriving DecidableEq, Repr

/-- The framework that is called, if one is. -/
def LogOrigin.framework? : LogOrigin → Option Framework
  | .framework called => some called
  | _ => none

/-- What is reported: a message with a severity, and a marker for frameworks that have them. -/
structure LogEvent where
  severity : Severity
  message : Message
  marker : Option Expr := none
  deriving DecidableEq

/-- A recognised call. -/
structure LogCall extends LogEvent where
  /-- The logger, or the exception whose trace is printed, or the console stream. -/
  receiver : Expr
  origin : LogOrigin
  /-- The call spells its message canonically already. -/
  isCanonical : Bool
  method : ResolvedMethod
  /-- The severity is given by a level argument and not by the method's name. -/
  hasLevelArgument : Bool := false
  deriving DecidableEq

/-- How calls are recognised. -/
structure RecognizeOptions where
  /-- The severity of what is written to standard output. -/
  consoleSeverity : Severity := .info
  /-- Replace a request for the attached exception's message by the exception itself. -/
  collapseAccessors : Bool := false

/-- The console stream that the expression names. -/
def Expr.consoleStream? (expr : Expr) : Option ConsoleStream :=
  match expr.bare with
  | .fieldAccess (.typeRef fqn) name _ =>
    if fqn = ClassName.system then
      if name = "out" then some .out else if name = "err" then some .err else none
    else none
  | _ => none

namespace LogCall

/-- A call of a framework's logging method, from the arguments after the level. -/
def ofFramework? (options : RecognizeOptions) (framework : Framework) (severity : Severity)
    (hasLevelArgument : Bool) (receiver : Expr) (arguments : List Expr) (method : ResolvedMethod) :
    Option LogCall := do
  let _ ← receiver.staticType
  let (marker, rest) := framework.splitMarker arguments
  match rest with
  | [] => none
  | operand :: trailing =>
    let found ← Message.extract? framework.templateStyle options.collapseAccessors operand trailing
    return {
      severity, message := found.message, marker, receiver, origin := .framework framework
      isCanonical := found.isCanonical, method, hasLevelArgument }

/-- A printed stack trace. With arguments the trace is written elsewhere. -/
def ofStackTrace? (receiver : Expr) (arguments : List Expr) (method : ResolvedMethod) :
    Option LogCall :=
  if arguments.isEmpty && receiver.isThrowable then
    some {
      severity := .error, message := { template := "Exception", error := some receiver }
      receiver, origin := .stackTrace, isCanonical := false, method }
  else none

/-- A write of one value to the console. Arrays are written in their own way. -/
def ofConsole? (options : RecognizeOptions) (receiver : Expr) (arguments : List Expr)
    (method : ResolvedMethod) : Option LogCall := do
  let stream ← receiver.consoleStream?
  match arguments with
  | [value] =>
    if value.hasType (!·.isArray) then
      let found ← Message.extract? .anonymous options.collapseAccessors value []
      let severity := match stream with
        | .out => options.consoleSeverity
        | .err => .error
      return {
        severity, message := found.message, receiver, origin := .console stream
        isCanonical := false, method }
    else none
  | _ => none

/-- The recognised call that an expression is. -/
def recognize? (options : RecognizeOptions) : Expr → Option LogCall
  | .methodCall (some receiver) name arguments (some method) => do
      let signature ← resolveSignature? (some receiver) name method
      match signature.shape with
      | .leveled severity =>
        ofFramework? options (← signature.framework) severity false receiver arguments method
      | .levelArgument =>
        let framework ← signature.framework
        match arguments with
        | [] => none
        | level :: rest =>
          ofFramework? options framework (← framework.levelSeverity? level) true receiver rest
            method
      | .stackTrace => ofStackTrace? receiver arguments method
      | .console => ofConsole? options receiver arguments method
      | _ => none
  | _ => none

end LogCall

end LogCalls
