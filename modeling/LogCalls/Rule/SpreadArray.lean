import LogCalls.Rule.ConstantMessage

/-! # Arrays of parameters

`logger.info("{} of {}", new Object[]{a, b})` becomes `logger.info("{} of {}", a, b)` for frameworks
whose methods take any number of parameters. -/

namespace LogCalls.SpreadArray

/-- How many arguments stand before the message of a call that takes a `{}` template. -/
def messageIndex? : Expr → Option Nat
  | .methodCall select name arguments (some method) => do
      let signature ← resolveSignature? select name method
      let framework ← signature.framework
      if framework.templateStyle = .anonymous then
        let offset ← match signature.shape with
          | .leveled _ => some 0
          | .levelArgument => some 1
          | _ => none
        let marked := arguments[offset]?.any framework.isMarker
        return if marked then offset + 1 else offset
      else none
  | _ => none

/-- The elements of an array of objects at the end of the arguments, and the arguments before it. -/
def splitArray? (arguments : List Expr) : Option (List Expr × List Expr) :=
  match arguments.getLast? with
  | some (.newArray element elements) =>
    if element.typeName = ClassName.object then some (arguments.dropLast, elements) else none
  | _ => none

/-- The call with the array's elements as parameters. A single element of array or unknown type
would be taken for the parameters themselves. -/
def replace? (expr : Expr) : Option Replacement := do
  let index ← messageIndex? expr
  match expr with
  | .methodCall select name arguments method =>
    let (leading, elements) ← splitArray? arguments
    if leading.length ≤ index || ConstantMessage.mayBeSpread elements then none
    else some { expr := .methodCall select name (leading ++ elements) method }
  | _ => none

/-- The expression is a call whose last argument is an array of given elements. -/
def endsInArray : Expr → Bool
  | .methodCall _ _ arguments _ =>
    match arguments.getLast? with
    | some (.newArray _ _) => true
    | _ => false
  | _ => false

/-- The rule. -/
def rule : Rule where
  name := "array-to-varargs"
  description := "Passes an explicit Object[] of log parameters as varargs"
  applies := fun expr _ => expr.isResolvedCall && endsInArray expr
  onExpr := fun expr _ => .ok (replace? expr)

end LogCalls.SpreadArray
