import LogCalls.Message.Segment

/-! # Messages

A message in the form that all frameworks share: a template with `{}` placeholders, one argument
for each of them, and an exception that is attached to the call without a placeholder. -/

namespace LogCalls

/-- A message in canonical form. -/
structure Message where
  /-- Raw source text with a `{}` for each argument. -/
  template : String
  arguments : List Expr := []
  /-- An exception attached to the call; it has no placeholder. -/
  error : Option Expr := none
  deriving DecidableEq

namespace Message

/-- A text without arguments, printed as it is. -/
def plain (text : String) (error : Option Expr := none) : Message :=
  { template := Template.escape text, error }

/-- The texts around the placeholders, with escapes removed. -/
def pieces (message : Message) : List String := Template.pieces message.template

/-- The text of a message that has no arguments. -/
def text (message : Message) : String := String.join message.pieces

/-- The one expression that the message consists of, if there is nothing around it. -/
def sole? (message : Message) : Option Expr :=
  match message.arguments with
  | [only] => if message.template = "\x7b\x7d" then some only else none
  | _ => none

/-- The one string that the message consists of, if there is nothing around it. -/
def soleString? (message : Message) : Option Expr := message.sole?.filter (·.isString)

/-- How segments are turned into a message. -/
structure CompileOptions where
  /-- An exception that the call carries already; then one at the end of the message stays there. -/
  explicitError : Option Expr := none
  /-- Replace a request for the attached exception's message by the exception itself. -/
  collapseAccessors : Bool := false

/-- Take off an exception at the end of the segments. -/
def splitError (segments : List Segment) : List Segment × Option Expr :=
  match segments.getLast? with
  | some (.argument expr) =>
    if expr.operandKind = .throwable then (segments.dropLast, some expr) else (segments, none)
  | _ => (segments, none)

/-- A segment that asks `error` for its message becomes `error` itself. -/
def collapseAccessor (error : Expr) : Segment → Segment
  | .text raw => .text raw
  | .argument expr => if expr.accessedError? = some error then .argument error else .argument expr

/-- The message that segments make. An exception at the end is attached, unless the call carries one
already. -/
def ofSegments (options : CompileOptions) (segments : List Segment) : Message :=
  let (kept, error) := match options.explicitError with
    | some error => (segments, some error)
    | none => splitError segments
  let shown := match error with
    | some error => if options.collapseAccessors then kept.map (collapseAccessor error) else kept
    | none => kept
  { template := Segment.template shown, arguments := Segment.arguments shown, error }

end Message

end LogCalls
