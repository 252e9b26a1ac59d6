import LogCalls.Rule.ConstantMessage

/-! # Complete exceptions

A call that ends by asking an exception for its message loses the exception's type and trace. The
exception itself is passed as well: after the message if the template has a placeholder for that, in
its place otherwise. -/

namespace LogCalls.CompleteException

/-- The arguments of a call, without a marker, with the exception passed as well. -/
def complete? (arguments : List Expr) : Option (List Expr) := do
  let last ← arguments.getLast?
  let error ← last.accessedError?
  match arguments with
  | [_] => some [.string "", error]
  | first :: _ =>
    let template ← first.stringLiteral?
    if arguments.length - 1 ≤ Template.placeholderCount template then some (arguments ++ [error])
    else some (arguments.dropLast ++ [error])
  | [] => none

/-- The call with the exception passed as well. -/
def replace? (expr : Expr) : Option Replacement := do
  let framework ← Framework.ofLeveledTemplateCall? expr
  match expr with
  | .methodCall select name arguments method =>
    let (marker, rest) := framework.splitMarker arguments
    let completed ← complete? rest
    return { expr := .methodCall select name (marker.toList ++ completed) method }
  | _ => none

/-- The rule. -/
def rule : Rule where
  name := "complete-exception"
  description := "Logs the exception rather than only its message"
  applies := fun expr _ => expr.isResolvedCall
  onExpr := fun expr _ => .ok (replace? expr)

end LogCalls.CompleteException
