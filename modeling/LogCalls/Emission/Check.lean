import LogCalls.Emission.Effects
import LogCalls.Framework.SeverityPolicy

/-! # Writing checks and accessors

The call that asks a logger of the target framework whether a severity is enabled, and the call that
asks the framework for a logger. -/

namespace LogCalls

namespace Framework

/-- The check for a severity: a method of its own if the framework has one, or else the check that
takes a level. -/
def emitCheck? (target : Framework) (severity : Severity) (policy : SeverityPolicy)
    (receiver : Expr) : Option Replacement :=
  let severity := policy.resolve severity target
  let check (method : String) (arguments : List Expr) : Expr :=
    .call receiver method arguments
      (.onInstanceReturning target.loggerType method (.primitive .boolean))
  match target.enabledMethod? severity with
  | some method => some { expr := check method [] }
  | none => do
      let method ← target.levelCheckMethod?
      let levelType ← target.levelType?
      let constant ← target.levelConstant? severity
      return {
        expr := check method [.constant levelType constant]
        effects := ({} : Effects).importing levelType }

/-- The call that asks the framework for a logger, with the accessor's class imported. -/
def emitFactory (target : Framework) (key : LoggerKey) (owner : String) : Replacement where
  expr := target.factoryCall key owner
  effects := ({} : Effects).importing target.factoryType

end Framework

end LogCalls
