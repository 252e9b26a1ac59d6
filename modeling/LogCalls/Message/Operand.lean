import LogCalls.Tree.Expr

/-! # Message operands

What an expression contributes to the message it is part of. Parentheses make no difference, and an
expression of unknown type is nothing in particular. -/

namespace LogCalls

/-- The roles an expression can have in a message. -/
inductive OperandKind where
  /-- A string literal, which is text. -/
  | literal
  /-- A concatenation into a string, whose operands are looked at in turn. -/
  | concatenation
  /-- A call that asks an exception for its message. -/
  | errorAccessor
  /-- An exception. -/
  | throwable
  /-- A value of any other kind. -/
  | other
  deriving DecidableEq, Repr

namespace Expr

/-- The expression adds two operands into a string. -/
def isConcatenation : Expr → Bool
  | .binary .add _ _ (some type) => type.isString
  | _ => false

/-- The names of the methods that ask an exception for its message. -/
def errorAccessors : List String := ["getMessage", "getLocalizedMessage"]

/-- The exception that is asked for its message, if the expression does that. -/
def accessedError? (expr : Expr) : Option Expr :=
  match expr.bare with
  | .methodCall (some select) name [] method =>
    let declaredOnThrowable := method.any (·.declaringType == ClassName.throwable)
    if errorAccessors.contains name && (declaredOnThrowable || select.isThrowable) then some select
    else none
  | _ => none

/-- The role of an expression in a message. -/
def operandKind (expr : Expr) : OperandKind :=
  if expr.bare.stringLiteral?.isSome then .literal
  else if expr.bare.isConcatenation then .concatenation
  else if expr.accessedError?.isSome then .errorAccessor
  else if expr.isThrowable then .throwable
  else .other

end Expr

end LogCalls
