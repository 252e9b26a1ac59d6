import LogCalls.Message.Indexed

/-! # Reading messages out of calls

The message operand of a call and the arguments that follow it, read as a message. Whatever cannot
be read without guessing is left alone. -/

namespace LogCalls

/-- How a framework spells a message that carries parameters. -/
inductive TemplateStyle where
  /-- `{}` placeholders. -/
  | anonymous
  /-- `{0}` placeholders in the manner of `MessageFormat`. -/
  | indexed
  /-- No templates: a message is any object. -/
  | concatenation
  deriving DecidableEq, Repr

namespace Message

/-- A text that is printed as it is, with an exception. -/
def verbatim? (text : String) (error : Option Expr) : Option Message :=
  if Template.isRepresentable text then some (plain text error) else none

/-- The arguments after a message are none, or one exception. -/
def onlyError? : List Expr → Option (Option Expr)
  | [] => some none
  | [error] => if error.isThrowable then some (some error) else none
  | _ => none

/-- A template with `{}` placeholders and the arguments that follow it. The last may be an exception
that has no placeholder. -/
def ofArguments? (template : String) (arguments : List Expr) : Option Message :=
  let count := Template.placeholderCount template
  match arguments.getLast? with
  | none => none
  | some last =>
    if last.isThrowable && count + 1 = arguments.length then
      some { template, arguments := arguments.dropLast, error := some last }
    else if count = arguments.length then some { template, arguments }
    else none

/-- The parameters of an indexed pattern: the elements of an array, or a single value. -/
def parameters? : List Expr → Option (List Expr)
  | [.newArray _ elements] => some elements
  | [parameter] => some [parameter]
  | _ => none

/-- A message whose operand is a literal, read in the style of its framework. Without parameters the
literal is not a template, and braces in it are text. -/
def ofTemplate? (style : TemplateStyle) (raw : String) (trailing : List Expr) : Option Message :=
  match onlyError? trailing with
  | some error => verbatim? raw error
  | none =>
    match style with
    | .anonymous => ofArguments? raw trailing
    | .indexed => do Indexed.message? raw (← parameters? trailing)
    | .concatenation => none

/-- A message read out of a call. -/
structure Extracted where
  message : Message
  /-- The call spells the message in its framework's own canonical way already. -/
  isCanonical : Bool
  deriving DecidableEq

/-- A message whose operand is a literal, with the arguments that follow it. -/
def ofLiteral? (style : TemplateStyle) (operand : Expr) (trailing : List Expr) : Option Message := do
  ofTemplate? style (← operand.bare.stringLiteral?) trailing

/-- Every text among the segments can stand in a template, and every value has a known type. -/
def readable (segments : List Segment) : Bool :=
  segments.all fun
    | .text raw => Template.isRepresentable raw
    | .argument expr => expr.staticType.isSome

/-- The message of a call, from its operand and the arguments that follow it. An operand that is not
a literal can be followed by nothing but an exception. -/
def extract? (style : TemplateStyle) (collapseAccessors : Bool) (operand : Expr)
    (trailing : List Expr) : Option Extracted :=
  if operand.operandKind = .literal then
    (ofLiteral? style operand trailing).map ({ message := ·, isCanonical := true })
  else do
    let explicitError ← onlyError? trailing
    let _ ← operand.staticType
    let segments := operand.segments
    if readable segments then
      let message := ofSegments { explicitError, collapseAccessors } segments
      let movedError := explicitError.isNone && message.error.isSome
      some { message, isCanonical := operand.operandKind != .concatenation && !movedError }
    else none

end Message

end LogCalls
