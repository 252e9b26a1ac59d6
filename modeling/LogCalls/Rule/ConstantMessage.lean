import LogCalls.Rule.Basic

/-! # Constant messages

Calls with `{}` templates should start with a constant message:

* `logger.info(String.format("%s of %d", a, b))` becomes `logger.info("{} of {}", a, b)`;
* `logger.error(String.valueOf(e))` becomes `logger.error("Exception", e)`;
* `logger.debug(x.toString())` becomes `logger.debug("{}", x)`. -/

namespace LogCalls

/-- The framework of a call whose method stands for a severity and takes `{}` templates. -/
def Framework.ofLeveledTemplateCall? (expr : Expr) : Option Framework := do
  let signature ← expr.signature?
  let framework ← signature.framework
  match signature.shape with
  | .leveled _ => if framework.templateStyle = .anonymous then some framework else none
  | _ => none

namespace ConstantMessage

/-- The letters that end a plain specifier. -/
def conversions : List Char := ['d', 'f', 's', 'c', 'b', 'B', 'h', 'H']

/-- The texts around the specifiers of a format, each a percent sign, digits and dots, and a
conversion letter. A percent sign that starts no such specifier makes the format unreadable. -/
def formatChunksFrom : (inSpecifier : Bool) → List Char → Option (List (List Char))
  | false, [] => some [[]]
  | true, [] => none
  | false, '%' :: rest => (formatChunksFrom true rest).map ([] :: ·)
  | false, c :: rest =>
    match formatChunksFrom false rest with
    | some (first :: others) => some ((c :: first) :: others)
    | _ => none
  | true, c :: rest =>
    if Text.isDecimalDigit c || c == '.' then formatChunksFrom true rest
    else if conversions.contains c then formatChunksFrom false rest
    else none

/-- The texts around the specifiers of a format. -/
def formatChunks? (format : List Char) : Option (List (List Char)) := formatChunksFrom false format

/-- Texts with a placeholder between any two of them. -/
def joinChunks : List (List Char) → List Char
  | [] => []
  | [last] => last
  | chunk :: rest => chunk ++ Template.placeholder ++ joinChunks rest

/-- The arguments of a call of a static method of the string class. -/
def stringCall? (method : String) (expr : Expr) : Option (List Expr) :=
  match expr.bare with
  | .methodCall _ name arguments (some resolved) =>
    if name = method && resolved.declaringType = ClassName.string then some arguments else none
  | _ => none

/-- A parameter list whose only element could be an array, which would be spread. -/
def mayBeSpread : List Expr → Bool
  | [only] => !only.hasType (!·.isArray)
  | _ => false

/-- A formatted text as template and arguments. Formats that hold `{}` or a backslash would mean
something else as a template. -/
def ofFormat? (operand : Expr) : Option (List Expr) := do
  match ← stringCall? "format" operand with
  | [] => none
  | format :: parameters =>
    let raw := (← format.bare.stringLiteral?).toList
    let chunks ← formatChunks? raw
    if (Template.chunks raw).length ≠ 1 || raw.contains '\\' then none
    else if chunks.length ≠ parameters.length + 1 || mayBeSpread parameters then none
    else some (.string (String.ofList (joinChunks chunks)) :: parameters)

/-- The text of an exception, with the exception attached. -/
def ofValue? (operand : Expr) : Option (List Expr) := do
  match ← stringCall? "valueOf" operand with
  | [value] => if value.isThrowable then some [.string "Exception", value] else none
  | _ => none

/-- The text of an object as the only argument of a template. -/
def ofToString? (operand : Expr) : Option (List Expr) :=
  match operand.bare with
  | .methodCall (some receiver) "toString" [] _ =>
    if receiver.hasType (!·.isArray) then some [.string "\x7b\x7d", receiver] else none
  | _ => none

/-- A constant message with its arguments for an operand that stands alone or, if it is a format,
before other arguments. -/
def constant? (operand : Expr) (trailing : List Expr) : Option (List Expr) :=
  match ofFormat? operand with
  | some replaced => some replaced
  | none => if trailing.isEmpty then (ofValue? operand).or (ofToString? operand) else none

/-- The call with a constant message. -/
def replace? (expr : Expr) : Option Replacement := do
  let framework ← Framework.ofLeveledTemplateCall? expr
  match expr with
  | .methodCall select name arguments method =>
    let (marker, rest) := framework.splitMarker arguments
    match rest with
    | [] => none
    | operand :: trailing =>
      let replaced ← constant? operand trailing
      return { expr := .methodCall select name (marker.toList ++ replaced ++ trailing) method }
  | _ => none

/-- The rule. -/
def rule : Rule where
  name := "constant-message"
  description :=
    "Replaces String.format, String.valueOf and toString() messages with constant templates"
  applies := fun expr _ => expr.isResolvedCall
  onExpr := fun expr _ => .ok (replace? expr)

end ConstantMessage

end LogCalls
