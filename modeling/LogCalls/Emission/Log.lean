import LogCalls.CallSite.Log
import LogCalls.Emission.Effects
import LogCalls.Framework.SeverityPolicy
import LogCalls.Message.Concatenation

/-! # Writing log calls

The call that reports an event through a logger of a given framework. -/

namespace LogCalls

/-- A call of the method that logs with a severity. -/
def Framework.leveledCall (target : Framework) (severity : Severity) (receiver : Expr)
    (arguments : List Expr) : Expr :=
  let method := target.methodFor severity
  .call receiver method arguments (.onInstance target.loggerType method)

namespace Message

/-- The text of a message without arguments, which is never formatted. -/
def textLiteral (message : Message) : Expr := .string message.text

/-- The message and its arguments as arguments of a call that takes `{}` templates. A single array
would be spread over the parameters, so it is wrapped. -/
def templateArguments (message : Message) : List Expr :=
  match message.soleString? with
  | some only => [only]
  | none =>
    match message.arguments with
    | [] => [message.textLiteral]
    | [argument] =>
      if message.error.isNone && argument.isArray then
        [.string message.template, .objectArray [argument]]
      else [.string message.template, argument]
    | arguments => .string message.template :: arguments

/-- The parameters of an indexed pattern as one argument. A single exception or array would be taken
for something else, so it is wrapped. -/
def indexedParameters (message : Message) : Expr :=
  match message.arguments with
  | [argument] =>
    if argument.isThrowable || argument.isArray then .objectArray [argument] else argument
  | arguments => .objectArray arguments

/-- The message as one string. -/
def stringExpr (message : Message) : Expr :=
  match message.soleString? with
  | some only => only
  | none =>
    if message.arguments.isEmpty then message.textLiteral
    else
      let text := message.concatenation
      if text.isString then text else .concat (.string "") text

end Message

namespace LogEvent

/-- The class of level constants that a call with a level argument is written with. -/
def julLevelType : String := "java.util.logging.Level"

/-- A call on a logger whose templates are indexed. An exception can be attached only to a message
without parameters, so a message with both is put together into one string. -/
def emitIndexed (message : Message) (target : Framework) (severity : Severity) (receiver : Expr) :
    Replacement :=
  let levelType := target.levelType?.getD julLevelType
  let level := Expr.constant levelType ((target.levelConstant? severity).getD "SEVERE")
  let logCall (arguments : List Expr) : Replacement := {
    expr := .call receiver "log" (level :: arguments) (.onInstance target.loggerType "log")
    effects := ({} : Effects).importing levelType }
  match message.error with
  | some error => logCall [message.stringExpr, error]
  | none =>
    if message.arguments.isEmpty || message.soleString?.isSome then
      { expr := target.leveledCall severity receiver [message.stringExpr] }
    else logCall [.string message.indexed, message.indexedParameters]

/-- The call that reports the event through a logger of the target framework. -/
def emit (event : LogEvent) (target : Framework) (policy : SeverityPolicy) (receiver : Expr) :
    Replacement :=
  let severity := policy.resolve event.severity target
  let message := event.message
  match target.templateStyle with
  | .anonymous =>
    { expr := target.leveledCall severity receiver
        (event.marker.toList ++ message.templateArguments ++ message.error.toList) }
  | .concatenation =>
    { expr := target.leveledCall severity receiver
        (message.concatenation :: message.error.toList) }
  | .indexed => emitIndexed message target severity receiver

end LogEvent

end LogCalls
