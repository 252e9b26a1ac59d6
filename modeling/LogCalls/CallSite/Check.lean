import LogCalls.CallSite.Signature

/-! # Checks that a severity is enabled

Calls that ask a logger whether it would log, by a method of their own for each severity or with a
level as argument. -/

namespace LogCalls

/-- A recognised check. -/
structure LevelCheck where
  framework : Framework
  severity : Severity
  receiver : Expr
  /-- The severity is given by a level argument and not by the method's name. -/
  hasLevelArgument : Bool

/-- The recognised check that an expression is. -/
def LevelCheck.recognize? : Expr → Option LevelCheck
  | .methodCall (some receiver) name arguments (some method) => do
      let _ ← receiver.staticType
      let signature ← resolveSignature? (some receiver) name method
      let framework ← signature.framework
      match signature.shape, arguments with
      | .enabledCheck severity, [] =>
        return { framework, severity, receiver, hasLevelArgument := false }
      | .levelCheck, [level] =>
        let severity ← framework.levelSeverity? level
        return { framework, severity, receiver, hasLevelArgument := true }
      | _, _ => none
  | _ => none

end LogCalls
