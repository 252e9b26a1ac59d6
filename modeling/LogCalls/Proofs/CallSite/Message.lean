import LogCalls.Proofs.CallSite.Recognition
import LogCalls.Proofs.Message.Arguments
import LogCalls.Proofs.Message.Balance

/-! # Messages of recognised calls

A recognised call has a balanced message, and the arguments of that message are the expressions that
the call evaluates for it. -/

namespace LogCalls

namespace LogCall

/-! ## Placeholders and arguments -/

/-- Messages of recognised calls are balanced, wherever they come from. -/
theorem balanced_recognize? {options : RecognizeOptions} {expr : Expr} {call : LogCall}
    (recognized : recognize? options expr = some call) : call.message.Balanced := by
  obtain ⟨receiver, name, arguments, method, -, origin⟩ := recognize?_cases recognized
  obtain ⟨framework, severity, -, made⟩ | ⟨framework, severity, level, rest, -, -, -, made⟩ |
    made | made := origin
  · obtain ⟨marker, operand, trailing, found, -, read, rfl⟩ := ofFramework?_cases made
    exact Message.balanced_extract? read
  · obtain ⟨marker, operand, trailing, found, -, read, rfl⟩ := ofFramework?_cases made
    exact Message.balanced_extract? read
  · obtain ⟨-, -, rfl⟩ := ofStackTrace?_cases made
    -- The text of a printed stack trace is fixed and has no placeholder.
    have fixed : Template.placeholderCount "Exception" = 0 := by decide
    exact fixed
  · obtain ⟨stream, value, found, -, -, read, same, -, -⟩ := ofConsole?_cases made
    rw [same]
    exact Message.balanced_extract? read

/-- **One placeholder for each argument.** The template of a recognised call's message has as many
placeholders as the message has arguments, and there is one piece more than that. The same holds of
any message that is read from an operand and the expressions that follow it. -/
theorem placeholderCount_message :
    (∀ (options : RecognizeOptions) (expr : Expr) (call : LogCall),
      recognize? options expr = some call →
        Template.placeholderCount call.message.template = call.message.arguments.length ∧
          call.message.pieces.length = call.message.arguments.length + 1) ∧
    (∀ (style : TemplateStyle) (collapseAccessors : Bool) (operand : Expr) (trailing : List Expr)
      (found : Message.Extracted),
      Message.extract? style collapseAccessors operand trailing = some found →
        Template.placeholderCount found.message.template = found.message.arguments.length ∧
          found.message.pieces.length = found.message.arguments.length + 1) := by
  constructor
  · intro options expr call recognized
    have balanced := balanced_recognize? recognized
    exact ⟨balanced, balanced.length_pieces⟩
  · intro style collapseAccessors operand trailing found read
    have balanced := Message.balanced_extract? read
    exact ⟨balanced, balanced.length_pieces⟩

/-- A concatenation with braces, a backslash before a value and a request for the message of the
attached exception; and an indexed pattern that quotes a brace and reorders its parameters. -/
theorem placeholderCount_message_escaped :
    let error := Expr.ident "e" (.named ClassName.throwable)
    let request := Expr.call error "getMessage" []
      (.onInstanceReturning ClassName.throwable "getMessage" .string)
    let logger := Expr.ident "log" (.named "org.slf4j.Logger")
    let method := ResolvedMethod.onInstance "org.slf4j.Logger" "info"
    let expr := Expr.call logger "info"
      [.concat (.string "a\x7b\x7d\\\\") (.parens (.concat request (.string "."))), error] method
    let message : Message :=
      { template := "a\\\\\x7b\x7d\\\\\\\\\x7b\x7d.", arguments := [error], error := some error }
    let call : LogCall := {
      severity := .info, message, receiver := logger, origin := .framework .slf4j
      isCanonical := false, method }
    let first := Expr.ident "x" .string
    let second := Expr.ident "y" .string
    let found : Message.Extracted :=
      { message := { template := "'\x7b\x7d\x7b:\x7b\x7d", arguments := [second, first] }
        isCanonical := true }
    recognize? { collapseAccessors := true } expr = some call ∧
      Template.placeholderCount call.message.template = 1 ∧ call.message.pieces.length = 2 ∧
    Message.extract? .indexed false (.string "''\x7b1\x7d'\x7b':\x7b0\x7d")
        [.objectArray [first, second]] = some found ∧
      Template.placeholderCount found.message.template = 2 ∧
      found.message.pieces.length = 3 := by
  intro error request logger method expr message call first second found
  have recognized : recognize? { collapseAccessors := true } expr = some call := by decide
  have read : Message.extract? .indexed false (.string "''\x7b1\x7d'\x7b':\x7b0\x7d")
      [.objectArray [first, second]] = some found := by decide
  obtain ⟨ofCalls, ofOperands⟩ := placeholderCount_message
  obtain ⟨callCount, callPieces⟩ := ofCalls _ _ _ recognized
  obtain ⟨count, pieces⟩ := ofOperands _ _ _ _ _ read
  exact ⟨recognized, callCount, callPieces, read, count, pieces⟩

/-! ## Arguments -/

/-- **No argument is lost, repeated or reordered.** In a recognised call of a framework, the operand
after the level and the marker and the expressions that follow it are what the arguments of the message
and the attached exception come from, in order. Only the parameters of an indexed pattern can be
repeated or reordered, if evaluating them makes no difference. -/
theorem keepsArguments_recognize? (options : RecognizeOptions) (expr : Expr) (call : LogCall)
    (framework : Framework) (uncollapsed : options.collapseAccessors = false)
    (recognized : recognize? options expr = some call)
    (logs : call.origin = .framework framework) :
    ∃ name level operand rest,
      expr = .methodCall (some call.receiver) name
        (level ++ call.marker.toList ++ operand :: rest) (some call.method) ∧
      level.length = (if call.hasLevelArgument then 1 else 0) ∧
      call.message.KeepsArguments framework.templateStyle operand rest := by
  obtain ⟨name, level, operand, rest, found, whole, length, read, same⟩ :=
    recognize?_framework recognized logs
  rw [uncollapsed] at read
  rw [same]
  exact ⟨name, level, operand, rest, whole, length, Message.keepsArguments_extract? read⟩

/-- A call with a level and a marker, whose nested concatenation ends in an exception. -/
theorem keepsArguments_recognize?_nested :
    let logger := Expr.ident "log" (.named "org.apache.logging.log4j.Logger")
    let method := ResolvedMethod.onInstance "org.apache.logging.log4j.Logger" "log"
    let level := Expr.constant "org.apache.logging.log4j.Level" "WARN"
    let marker := Expr.ident "m" (.named "org.apache.logging.log4j.Marker")
    let value := Expr.parens (.ident "x" .string)
    let error := Expr.ident "e" (.named ClassName.throwable)
    let operand := Expr.concat
      (.concat (.string "a") (.parens (.concat value (.string "b")))) error
    let expr := Expr.call logger "log" [level, marker, operand] method
    let call : LogCall := {
      severity := .warn, marker := some marker, receiver := logger, origin := .framework .log4j2
      message := { template := "a\x7b\x7db", arguments := [value], error := some error }
      isCanonical := false, method, hasLevelArgument := true }
    recognize? {} expr = some call ∧ operand.values = [value, error] ∧
      call.message.KeepsArguments .anonymous operand [] := by
  intro logger method level marker value error operand expr call
  have recognized : recognize? {} expr = some call := by decide
  refine ⟨recognized, by decide, ?_⟩
  obtain ⟨name, before, found, rest, whole, length, kept⟩ :=
    keepsArguments_recognize? {} expr call .log4j2 rfl recognized rfl
  -- The level is one expression, so the operand that was found is the third argument.
  obtain ⟨first, rfl⟩ := List.length_eq_one_iff.mp length
  have arguments : [level, marker, operand] = first :: marker :: found :: rest :=
    (Expr.methodCall.inj whole).2.2.1
  simp only [List.cons.injEq, true_and] at arguments
  obtain ⟨-, rfl, rfl⟩ := arguments
  exact kept

end LogCall

/-- A literal, a variable, a class, or a field of such an expression, without parentheses. -/
inductive Expr.Simple : Expr → Prop where
  | literal (value : Literal) : Simple (.literal value)
  | identifier (name : String) (type : Option JavaType) : Simple (.identifier name type)
  | classLiteral (fqn : String) : Simple (.classLiteral fqn)
  | typeRef (fqn : String) : Simple (.typeRef fqn)
  | fieldAccess {target : Expr} (name : String) (type : Option JavaType) :
      Simple target → Simple (.fieldAccess target name type)

theorem Expr.not_simple_parens (inner : Expr) : ¬ (Expr.parens inner).Simple := by
  intro simple
  cases simple

/-- Parameters need not be simple to be reordered: parentheses around one do not keep it in place. -/
theorem LogCall.recognize?_reorders_parenthesized :
    let logger := Expr.ident "log" (.named "java.util.logging.Logger")
    let method := ResolvedMethod.onInstance "java.util.logging.Logger" "log"
    let first := Expr.parens (.ident "a" .string)
    let second := Expr.ident "b" .string
    let parameters := [first, second]
    let expr := Expr.call logger "log"
      [.constant "java.util.logging.Level" "INFO", .string "\x7b1\x7d \x7b0\x7d",
        .objectArray parameters] method
    let call : LogCall := {
      severity := .info, receiver := logger, origin := .framework .jul
      message := { template := "\x7b\x7d \x7b\x7d", arguments := [second, first] }
      isCanonical := true, method, hasLevelArgument := true }
    recognize? {} expr = some call ∧
      Indexed.Parameters [.objectArray parameters] parameters ∧
      (∃ parameter ∈ parameters, ¬ parameter.Simple) ∧ call.message.arguments ≠ parameters := by
  intro logger method first second parameters expr call
  exact ⟨by decide, .array _ _, ⟨first, List.mem_cons_self, Expr.not_simple_parens _⟩, by decide⟩

end LogCalls
