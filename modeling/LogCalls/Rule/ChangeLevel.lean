import LogCalls.Rule.Basic

/-! # Changes of level

Calls of one severity get another. Only calls whose message starts with a literal are changed, and
of these, if a text is given, only those that start with it. -/

namespace LogCalls

/-- Settings of the rule. -/
structure ChangeLevel where
  source : Severity
  target : Severity
  /-- The text that messages have to start with. -/
  startsWith : Option String := none

namespace ChangeLevel

/-- The text that is looked for; a blank one filters nothing. -/
def filter? (settings : ChangeLevel) : Option String :=
  settings.startsWith.filter fun text => !(Text.trim text.toList).isEmpty

/-- The literal that an operand starts with, through the left operands of operations. -/
def leftmostLiteral? : Expr → Option String
  | .parens inner => leftmostLiteral? inner
  | .binary _ left _ _ => leftmostLiteral? left
  | .literal (.string raw) => some raw
  | _ => none

/-- The message is one that is to be changed. -/
def accepts (settings : ChangeLevel) (operand : Expr) : Bool :=
  match leftmostLiteral? operand with
  | some literal => settings.filter?.all fun text => text.toList.isPrefixOf literal.toList
  | none => false

/-- The call with the other severity. -/
def replace? (settings : ChangeLevel) (expr : Expr) : Option Replacement := do
  let signature ← expr.signature?
  let framework ← signature.framework
  match signature.shape, expr with
  | .leveled severity, .methodCall select name arguments method =>
    if severity ≠ settings.source || name ≠ framework.methodFor settings.source ||
        !framework.supports settings.target then none
    else
      let (_, rest) := framework.splitMarker arguments
      let operand ← rest.head?
      let newName := framework.methodFor settings.target
      let newMethod := method.map fun resolved => { resolved with name := newName }
      if settings.accepts operand then
        some { expr := .methodCall select newName arguments newMethod }
      else none
  | _, _ => none

/-- The rule. -/
def rule (settings : ChangeLevel) : Rule where
  name := "change-level"
  description := "Changes the severity of matching log calls"
  applies := fun expr _ => settings.source != settings.target && expr.isResolvedCall
  onExpr := fun expr _ => .ok (settings.replace? expr)

end ChangeLevel

end LogCalls
