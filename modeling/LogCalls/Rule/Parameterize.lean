import LogCalls.Emission.Log
import LogCalls.Pattern.Method
import LogCalls.Rule.Basic

/-! # Parameterized messages

`logger.info("Hello " + name)` becomes `logger.info("Hello {}", name)` for the frameworks that have
templates. -/

namespace LogCalls

/-- Settings of the rule. -/
structure Parameterize where
  /-- Only calls that this pattern selects are transformed. -/
  pattern : Option MethodPattern := none
  /-- Pass `x` and not `x.toString()` as an argument of a template. -/
  stripToString : Bool := false
  collapseAccessors : Bool := false

namespace Parameterize

/-- The receiver of a call for its text, as which it can be printed itself. -/
def stripped? : Expr → Option Expr
  | .methodCall (some select) "toString" [] _ => if select.staticType.isSome then some select else none
  | _ => none

/-- An argument without a call for its text. -/
def strip (argument : Expr) : Expr := (stripped? argument).getD argument

/-- The level of the call has no severity tier of its own, and would change if it were written
anew. -/
def hasLossyLevel (framework : Framework) : Expr → Bool
  | .methodCall _ name arguments _ =>
    (framework == .jul && (name == "finest" || name == "config")) ||
      ((framework == .jul || framework == .log4j2) && name == "log" &&
        match arguments.head?.map Expr.bare with
        | some (.fieldAccess _ level _) => ["ALL", "FINEST", "CONFIG"].contains level
        | _ => false)
  | _ => false

/-- The call with a template. An exception together with parameters has no form in a framework with
indexed templates. -/
def replace? (settings : Parameterize) (expr : Expr) : Option Replacement := do
  let found ← LogCall.recognize? { collapseAccessors := settings.collapseAccessors } expr
  let framework ← found.origin.framework?
  let message := found.message
  let style := framework.templateStyle
  if style = .concatenation || hasLossyLevel framework expr then none
  else if style = .indexed && message.error.isSome && !message.arguments.isEmpty then none
  else
    let strips := settings.stripToString && message.arguments.any (stripped? · |>.isSome)
    if found.isCanonical && !strips then none
    else
      let arguments := if strips then message.arguments.map strip else message.arguments
      let event : LogEvent := { found.toLogEvent with message := { message with arguments } }
      some (event.emit framework {} found.receiver)

/-- The rule. -/
def rule (settings : Parameterize) : Rule where
  name := "parameterize-messages"
  description := "Replaces concatenated log messages with parameterized templates"
  applies := fun expr _ => expr.isResolvedCall && settings.pattern.all (·.isMatch expr)
  onExpr := fun expr _ => .ok (settings.replace? expr)

end Parameterize

end LogCalls
