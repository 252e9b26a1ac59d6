import LogCalls.Tree.Equality
import LogCalls.Message.Operand
import LogCalls.Message.Template

/-! # Segments

A message as a sequence of texts and values, in the order in which they are evaluated. -/

namespace LogCalls

/-- One part of a message. -/
inductive Segment where
  /-- Raw source text. -/
  | text (raw : String)
  /-- A value to be printed in place. -/
  | argument (expr : Expr)
  deriving DecidableEq

namespace Segment

/-- The segment is an exception. -/
def isThrowable : Segment → Bool
  | .text _ => false
  | .argument expr => expr.operandKind == .throwable

/-- The value of the segment, if it is one. -/
def argument? : Segment → Option Expr
  | .text _ => none
  | .argument expr => some expr

/-- A template's text with one more segment. A placeholder after backslashes needs one more of them
to stay a placeholder. -/
def append (written : List Char) : Segment → List Char
  | .text raw => written ++ (Template.escape raw).toList
  | .argument _ =>
    written ++ (if Template.trailingBackslashes written = 0 then [] else Template.backslash) ++
      Template.placeholder

/-- The template that segments make. -/
def template (segments : List Segment) : String := String.ofList (segments.foldl append [])

/-- The arguments of that template. -/
def arguments (segments : List Segment) : List Expr := segments.filterMap argument?

@[simp] theorem arguments_text (raw : String) (rest : List Segment) :
    arguments (.text raw :: rest) = arguments rest := rfl

@[simp] theorem arguments_argument (expr : Expr) (rest : List Segment) :
    arguments (.argument expr :: rest) = expr :: arguments rest := rfl

/-- Neighbouring texts put together, and empty ones dropped. -/
def merge : List Segment → List Segment
  | [] => []
  | .text raw :: rest =>
    if raw = "" then merge rest
    else match merge rest with
      | .text next :: others => .text (raw ++ next) :: others
      | merged => .text raw :: merged
  | .argument expr :: rest => .argument expr :: merge rest

/-- Every text among the segments can stand in a template. -/
def representable (segments : List Segment) : Bool :=
  segments.all fun
    | .text raw => Template.isRepresentable raw
    | .argument _ => true

end Segment

namespace Expr

/-- The operands of a concatenation from left to right, through nested concatenations and
parentheses. `whole` is the expression with the parentheses around it, which an operand keeps. -/
def leaves (whole : Expr) : Expr → List Segment
  | .parens inner => leaves whole inner
  | .literal (.string raw) => [.text raw]
  | .binary .add left right (some type) =>
    if type.isString then leaves left left ++ leaves right right else [.argument whole]
  | _ => [.argument whole]

/-- The segments of a message expression, with neighbouring literals put together. -/
def segments (expr : Expr) : List Segment := Segment.merge (leaves expr expr)

end Expr

end LogCalls
