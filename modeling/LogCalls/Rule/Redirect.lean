import LogCalls.Emission.Log
import LogCalls.LoggerField.Resolve
import LogCalls.Rule.Basic

/-! # Console writes and stack traces

`e.printStackTrace()` becomes `logger.error("Exception", e)`, and what is written to the console is
logged. A write to the error stream that is followed by a printed stack trace becomes one call that
carries the exception. A class without a logger is given one. -/

namespace LogCalls

/-- Settings of the rules. -/
structure Redirect where
  target : Framework
  loggerPolicy : LoggerPolicy := {}
  severityPolicy : SeverityPolicy := {}
  recognize : RecognizeOptions := {}

namespace Redirect

/-- The event reported through the logger of the class, or through one it is given. -/
def emit? (settings : Redirect) (event : LogEvent) (scope : ClassScope) : Option Replacement := do
  let choice ← scope.chooseLogger? settings.target settings.loggerPolicy
  let replacement := event.emit settings.target settings.severityPolicy choice.receiver
  match choice.request? with
  | some request => replacement.withEffects (({} : Effects).requesting request)
  | none => replacement

/-- The console write that an expression is. -/
def consoleWrite? (settings : Redirect) (expr : Expr) : Option (LogCall × ConsoleStream) := do
  let found ← LogCall.recognize? settings.recognize expr
  match found.origin with
  | .console stream => some (found, stream)
  | _ => none

/-- The printed stack trace that an expression is. -/
def printedTrace? (expr : Expr) : Option LogCall := do
  let found ← LogCall.recognize? {} expr
  if found.origin = .stackTrace then some found else none

/-- A write to the error stream and the stack trace printed after it, as one event. The message may
carry no exception, or the same one. -/
def mergedEvent? (settings : Redirect) : Statement → Statement → Option LogEvent
  | .expression print, .expression trace => do
      let (write, stream) ← settings.consoleWrite? print
      if stream = .err then
        let error ← (← printedTrace? trace).message.error
        match write.message.error with
        | none => some { write.toLogEvent with message := { write.message with error := some error } }
        | some existing => if existing = error then some write.toLogEvent else none
      else none
  | _, _ => none

/-- The statements with every such pair merged into one call, and the effects of these calls. A field
that the first call needs serves the others. -/
def mergePairs (settings : Redirect) (scope : ClassScope) :
    List Statement → List Statement × Effects
  | first :: second :: rest =>
    match (settings.mergedEvent? first second).bind (settings.emit? · scope) with
    | some replacement =>
      let later := match replacement.effects.field with
        | some request => scope.addField request.declaration
        | none => scope
      let (statements, effects) := mergePairs settings later rest
      (.expression replacement.expr :: statements, replacement.effects.merge effects)
    | none =>
      let (statements, effects) := mergePairs settings scope (second :: rest)
      (first :: statements, effects)
  | statements => (statements, {})

/-- A console write as a call of a logger. -/
def replaceConsole? (settings : Redirect) (expr : Expr) (scope : Scope) : Option Replacement := do
  let (write, _) ← settings.consoleWrite? expr
  settings.emit? write.toLogEvent scope.current

/-- A block with pairs merged, if it has any. -/
def replaceBlock? (settings : Redirect) (block : List Statement) (scope : Scope) :
    Option BlockReplacement :=
  let (statements, effects) := settings.mergePairs scope.current block
  if statements.length = block.length then none else some { statements, effects }

/-- A printed stack trace as a call of a logger. -/
def replaceTrace? (settings : Redirect) (expr : Expr) (scope : Scope) : Option Replacement := do
  settings.emit? (← printedTrace? expr).toLogEvent scope.current

/-- The expression is a resolved call of a method with one of these names. -/
def callsNamed (names : List String) : Expr → Bool
  | .methodCall _ name _ (some _) => names.contains name
  | _ => false

/-- The rule for console writes. -/
def consoleRule (settings : Redirect) : Rule where
  name := "console"
  description := "Replaces System.out and System.err writes with log calls"
  applies := fun expr _ => callsNamed ["println", "print"] expr
  onExpr := fun expr scope => .ok (settings.replaceConsole? expr scope)
  onBlock := fun block scope => .ok (settings.replaceBlock? block scope)

/-- The rule for printed stack traces. -/
def stackTraceRule (settings : Redirect) : Rule where
  name := "print-stack-trace"
  description := "Logs exceptions at error level instead of printing their stack traces"
  applies := fun expr _ => callsNamed ["printStackTrace"] expr
  onExpr := fun expr scope => .ok (settings.replaceTrace? expr scope)

/-- Both rules together. -/
def rule (settings : Redirect) : Rule :=
  .bundle "system-print" "Routes console writes and stack-trace prints to the logger"
    [settings.consoleRule, settings.stackTraceRule]

end Redirect

end LogCalls
