import LogCalls.Proofs.Rule.ConstantMessage
import LogCalls.Proofs.Rule.Replacement

/-! # Lone exceptions

An exception that is the only argument after a template is not printed in the place of the
placeholder. It is attached to the call, and the template is printed as it is. This module says which
of the calls that rules write are of that form. -/

namespace LogCalls

variable {expr : Expr} {replacement : Replacement}

/-- A template with placeholders, and nothing but an exception after it. -/
def loneException : List Expr → Bool
  | [message, value] =>
    value.isThrowable &&
      message.bare.stringLiteral?.any fun raw => 0 < Template.placeholderCount raw
  | _ => false

/-- The call attaches the exception that its template has a placeholder for. -/
def Expr.hasLoneException (expr : Expr) : Bool := loneException expr.messageArguments

namespace Message

/-- The text that a message is written as when it is written without a template. -/
def verbatimText? (message : Message) : Option String :=
  match message.soleString? with
  | some only => only.bare.stringLiteral?
  | none => if message.arguments.isEmpty then some message.text else none

/-- The only argument of the message is an exception, and none is attached. -/
def isLoneException (message : Message) : Bool :=
  match message.arguments, message.error with
  | [only], none => only.isThrowable && message.soleString?.isNone
  | _, _ => false

/-- The message is a text that has braces in it, with an exception attached. -/
def isBracedText (message : Message) : Bool :=
  message.error.any Expr.isThrowable &&
    message.verbatimText?.any fun raw => 0 < Template.placeholderCount raw

end Message

/-! ## Messages and events -/

theorem Expr.isThrowable_of_isArray (array : expr.isArray = true) : expr.isThrowable = false := by
  rw [isArray, hasType, Option.any_eq_true] at array
  obtain ⟨type, known, array⟩ := array
  cases type with
  | array element =>
    rw [isThrowable, hasType, known]
    rfl
  | primitive kind => cases array
  | classType type => cases array

/-- One argument makes a template with a lone exception if it is an exception. -/
theorem loneException_template {template : String}
    (placeholders : 0 < Template.placeholderCount template) (value : Expr) :
    loneException [.string template, value] = value.isThrowable := by
  simp [loneException, Expr.string, Expr.bare, Expr.stringLiteral?, placeholders]

namespace Message

/-- **Messages with a lone exception.** What is written for a message is a template with placeholders
and nothing but an exception after it just if the only argument of the message is an exception and
none is attached, or the message is a text with braces and an attached exception. -/
theorem loneException_templateArguments {message : Message} (balanced : message.Balanced) :
    loneException (message.templateArguments ++ message.error.toList) =
      (message.isLoneException || message.isBracedText) := by
  unfold isLoneException isBracedText verbatimText?
  obtain ⟨only, sole, written⟩ | ⟨bare, written⟩ | ⟨only, sole, taken, alone, array, written⟩ |
    ⟨sole, nonempty, -, written⟩ := message.templateArguments_cases
  · obtain ⟨-, taken, -⟩ := soleString?_eq_some_iff.mp sole
    rw [written, sole, taken]
    cases message.error <;> simp [loneException]
  · have sole : message.soleString? = none := by
      rw [soleString?, sole?, bare]
      rfl
    rw [written, sole, bare]
    cases message.error <;> simp [loneException, textLiteral, Expr.string, Expr.bare,
      Expr.stringLiteral?]
  · -- The array around an array is no exception, and neither is the array itself.
    have wrapped : (Expr.objectArray [only]).isThrowable = false := rfl
    rw [written, taken, alone]
    simp [loneException, wrapped, Expr.isThrowable_of_isArray array]
  · have count : 0 < Template.placeholderCount message.template := by
      rw [balanced]
      exact List.length_pos_iff.mpr nonempty
    rw [written, sole]
    cases taken : message.arguments with
    | nil => exact absurd taken nonempty
    | cons first rest =>
      -- One expression follows the template only if it is the one argument, with none attached.
      cases rest with
      | cons second others => cases message.error <;> simp [loneException]
      | nil =>
        cases message.error with
        | some value => simp [loneException]
        | none => simp [loneException_template count]

/-- A marker in front of what is written for a message would have to be the message itself. -/
theorem loneException_splitMarker (message : Message) (target : Framework) :
    loneException (target.splitMarker (message.templateArguments ++ message.error.toList)).2 =
      loneException (message.templateArguments ++ message.error.toList) := by
  have unmarked (raw : String) (rest : List Expr) :
      (target.splitMarker (.string raw :: rest)).2 = .string raw :: rest := by
    rw [Framework.splitMarker, target.isMarker_string]
    rfl
  obtain ⟨only, -, written⟩ | ⟨-, written⟩ | ⟨only, -, -, -, -, written⟩ | ⟨-, -, -, written⟩ :=
    message.templateArguments_cases
  · rw [written, List.singleton_append, Framework.splitMarker]
    split
    · rename_i marker
      -- A string that is a marker is no literal, so there is no template before the exception.
      have other : only.bare.stringLiteral? = none := by
        cases literal : only.bare.stringLiteral? with
        | none => rfl
        | some raw =>
          rw [Framework.isMarker_of_stringLiteral? literal] at marker
          cases marker
      cases message.error <;> simp [loneException, other]
    · rfl
  · rw [written]
    exact congrArg _ (unmarked _ _)
  · rw [written]
    exact congrArg _ (unmarked _ _)
  · rw [written]
    exact congrArg _ (unmarked _ _)

end Message

/-- **Events with a lone exception.** The call that reports an event has a lone exception just if its
message is written with one. -/
theorem LogEvent.hasLoneException_emit (event : LogEvent) {target : Framework}
    (policy : SeverityPolicy) (receiver : Expr) (style : target.templateStyle = .anonymous)
    (typed : ∀ marker, event.marker = some marker → target.isMarker marker = true)
    (balanced : event.message.Balanced) :
    (event.emit target policy receiver).expr.hasLoneException =
      (event.message.isLoneException || event.message.isBracedText) := by
  have resolved := resolveSignature?_methodFor
    (policy.supports_resolve event.severity target) (some receiver)
  have emitted : (event.emit target policy receiver).expr =
      target.leveledCall (policy.resolve event.severity target) receiver
        (event.marker.toList ++ (event.message.templateArguments ++ event.message.error.toList)) := by
    rw [LogEvent.emit, style, ← List.append_assoc]
  rw [emitted, Framework.leveledCall, Expr.call, Expr.hasLoneException,
    SpreadArray.messageArguments_eq resolved style rfl, List.drop_zero,
    ← Message.loneException_templateArguments balanced]
  cases marked : event.marker with
  | none => exact event.message.loneException_splitMarker target
  | some marker =>
    rw [Option.toList_some, List.singleton_append, Framework.splitMarker, typed marker marked]
    rfl

/-! ## Reading -/

theorem loneException_iff {arguments : List Expr} : loneException arguments = true ↔
      ∃ message raw value, arguments = [message, value] ∧ message.bare.stringLiteral? = some raw ∧
        0 < Template.placeholderCount raw ∧ value.isThrowable = true := by
  constructor
  · intro lone
    unfold loneException at lone
    split at lone
    · rename_i message value
      obtain ⟨throwable, literal⟩ := Bool.and_eq_true_iff.mp lone
      obtain ⟨raw, literal, count⟩ := (Option.any_eq_true _ _).mp literal
      exact ⟨message, raw, value, rfl, literal, of_decide_eq_true count, throwable⟩
    · cases lone
  · rintro ⟨message, raw, value, rfl, literal, count, throwable⟩
    simp [loneException, literal, count, throwable]

/-- A literal with nothing but an exception after it is a plain text with that exception attached. -/
theorem Message.extract?_lone {style : TemplateStyle} {collapse : Bool} {operand value : Expr}
    {raw : String} {found : Extracted} (literal : operand.bare.stringLiteral? = some raw)
    (throwable : value.isThrowable = true)
    (read : extract? style collapse operand [value] = some found) :
    found.message = plain raw (some value) := by
  have only : onlyError? [value] = some (some value) := by rw [onlyError?, if_pos throwable]
  obtain ⟨text, same, template, -⟩ | ⟨other, -⟩ := extract?_cases read
  · rw [literal] at same
    cases same
    obtain ⟨error, taken, -, made⟩ | ⟨more, -⟩ | ⟨more, -⟩ := ofTemplate?_cases template
    · rw [only] at taken
      cases taken
      exact made
    · rw [only] at more
      cases more
    · rw [only] at more
      cases more
  · exact absurd (Expr.operandKind_eq_literal_iff.mpr ⟨raw, literal⟩) other

/-- A call with a lone exception is read as a plain text with that exception attached: the template
is printed as it is. -/
theorem LogCall.message_of_hasLoneException {options : RecognizeOptions} {call : LogCall}
    (recognized : recognize? options expr = some call) (lone : expr.hasLoneException = true) :
    ∃ message raw value, expr.messageArguments = [message, value] ∧
      message.bare.stringLiteral? = some raw ∧ 0 < Template.placeholderCount raw ∧
      value.isThrowable = true ∧ call.message = .plain raw (some value) := by
  obtain ⟨message, raw, value, whole, literal, count, throwable⟩ := loneException_iff.mp lone
  refine ⟨message, raw, value, whole, literal, count, throwable, ?_⟩
  obtain ⟨receiver, name, arguments, method, rfl, place⟩ := recognize?_messageOffset recognized
  have nonempty :
      (Expr.methodCall (some receiver) name arguments (some method)).messageArguments ≠ [] := by
    rw [whole]
    exact List.cons_ne_nil _ _
  obtain ⟨_, framework, shape, offset, ⟨⟩, resolved, -, known, rest⟩ :=
    SpreadArray.messageArguments_cases nonempty
  rw [rest] at whole
  obtain ⟨called, _, _, operand, trailing, found, -, same, stands, split, read, made⟩ |
    ⟨short, -⟩ := place
  · rw [resolved] at same
    cases same
    rw [known] at stands
    cases stands
    rw [split] at whole
    cases whole
    rw [made]
    exact Message.extract?_lone literal throwable read
  · -- One argument is too few for a message and an exception.
    have parts : arguments.drop offset = _ ++ (framework.splitMarker (arguments.drop offset)).2 :=
      Framework.eq_append_of_splitMarker rfl
    have length := congrArg List.length parts
    simp only [whole, List.length_append, List.length_drop, List.length_cons, List.length_nil]
      at length
    omega

/-! ## Rules -/

/-- A call that is given a template has a lone exception just if its message is written with one. -/
theorem Parameterize.hasLoneException_replace {settings : Parameterize}
    {call : LogCall} {framework : Framework} (replaced : settings.replace? expr = some replacement)
    (recognized :
      LogCall.recognize? { collapseAccessors := settings.collapseAccessors } expr = some call)
    (logs : call.origin = .framework framework) (style : framework.templateStyle = .anonymous) :
    replacement.expr.hasLoneException =
      ((settings.printed call.message).isLoneException ||
        (settings.printed call.message).isBracedText) := by
  obtain ⟨_, _, same, origin, rfl⟩ := replace?_cases replaced
  rw [recognized] at same
  cases same
  rw [logs] at origin
  cases origin
  exact LogEvent.hasLoneException_emit _ _ _ style
    (fun marker marked => LogCall.isMarker_marker recognized logs marked)
    (settings.balanced_printed (LogCall.balanced_recognize? recognized))

namespace ConstantMessage

/-- An operand whose text is that of one exception: a format with the exception as its only parameter,
or a call for the text of the exception. -/
def ShowsException (operand : Expr) : Prop :=
  ∃ value : Expr, value.isThrowable = true ∧
    ((∃ format, stringCall? "format" operand = some [format, value]) ∨
      ∃ method, operand.bare = .methodCall (some value) "toString" [] method)

/-- A constant message has a lone exception just if it stands for an operand that shows one, with
nothing after it. -/
theorem loneException_constant? {operand : Expr} {trailing replaced : List Expr}
    (made : constant? operand trailing = some replaced) :
    loneException (replaced ++ trailing) = true ↔ trailing = [] ∧ ShowsException operand := by
  obtain ⟨format, template, parameters, called, count, rfl⟩ | ⟨rfl, value, called, rfl⟩ |
    ⟨rfl, receiver, method, bare, rfl⟩ := constant?_cases made
  · obtain ⟨select, resolved, bare⟩ := stringCall?_eq_some called
    constructor
    · intro lone
      obtain ⟨message, raw, value, whole, literal, active, throwable⟩ := loneException_iff.mp lone
      obtain ⟨rfl, rest⟩ := List.cons_eq_cons.mp whole
      cases literal
      -- The template has as many placeholders as there are parameters, so there is one.
      cases parameters with
      | nil =>
        rw [count] at active
        cases active
      | cons first others =>
        obtain ⟨rfl, empty⟩ := List.cons_eq_cons.mp rest
        obtain ⟨rfl, rfl⟩ := List.append_eq_nil_iff.mp empty
        exact ⟨rfl, first, throwable, .inl ⟨format, called⟩⟩
    · rintro ⟨rfl, value, throwable, ⟨other, same⟩ | ⟨method, same⟩⟩
      · rw [called] at same
        cases same
        rw [List.append_nil, loneException_template (by rw [count]; exact Nat.one_pos)]
        exact throwable
      · rw [bare] at same
        exact absurd (Expr.methodCall.inj same).2.1 (by decide)
  · obtain ⟨select, resolved, bare⟩ := stringCall?_eq_some called
    have fixed : loneException ([.string "Exception", value] ++ []) = false := by
      have count : Template.placeholderCount "Exception" = 0 := by decide
      simp [loneException, Expr.string, Expr.bare, Expr.stringLiteral?, count]
    rw [fixed]
    constructor
    · intro lone
      cases lone
    · rintro ⟨-, shown, -, ⟨format, same⟩ | ⟨method, same⟩⟩
      · obtain ⟨other, found, same⟩ := stringCall?_eq_some same
        rw [bare] at same
        exact absurd (Expr.methodCall.inj same).2.1 (by decide)
      · rw [bare] at same
        exact absurd (Expr.methodCall.inj same).2.1 (by decide)
  · have count : 0 < Template.placeholderCount "\x7b\x7d" := by decide
    rw [List.append_nil, loneException_template count]
    constructor
    · intro throwable
      exact ⟨rfl, receiver, throwable, .inr ⟨method, bare⟩⟩
    · rintro ⟨-, shown, throwable, ⟨format, same⟩ | ⟨found, same⟩⟩
      · obtain ⟨other, found, same⟩ := stringCall?_eq_some same
        rw [bare] at same
        exact absurd (Expr.methodCall.inj same).2.1 (by decide)
      · rw [bare] at same
        cases same
        exact throwable

/-- A call that is given a constant message has a lone exception just if its message was one operand
that shows an exception, with nothing after it. -/
theorem hasLoneException_replace (made : replace? expr = some replacement) :
    replacement.expr.hasLoneException = true ↔
      ∃ operand, expr.messageArguments = [operand] ∧ ShowsException operand := by
  obtain ⟨select, name, arguments, method, framework, severity, marker, operand, trailing, replaced,
    rfl, resolved, style, split, constant, rfl⟩ := replace?_cases made
  have before : (Expr.methodCall select name arguments (some method)).messageArguments =
      operand :: trailing := by
    rw [SpreadArray.messageArguments_eq resolved style rfl, List.drop_zero, split]
  have after : (Expr.methodCall select name (marker.toList ++ replaced ++ trailing)
      (some method)).messageArguments = replaced ++ trailing := by
    obtain ⟨raw, rest, rfl⟩ : ∃ raw rest, replaced = .string raw :: rest := by
      obtain ⟨-, template, parameters, -, -, rfl⟩ | ⟨-, value, -, rfl⟩ | ⟨-, receiver, -, -, rfl⟩ :=
        constant?_cases constant
      · exact ⟨_, _, rfl⟩
      · exact ⟨_, _, rfl⟩
      · exact ⟨_, _, rfl⟩
    have typed : ∀ value, marker = some value → framework.isMarker value = true := by
      rintro value rfl
      exact Framework.isMarker_of_splitMarker split
    rw [SpreadArray.messageArguments_eq resolved style rfl, List.drop_zero, List.append_assoc,
      List.cons_append,
      Framework.splitMarker_append typed (framework.isMarker_string raw)]
  rw [Expr.hasLoneException, after, loneException_constant? constant, before]
  constructor
  · rintro ⟨rfl, shows⟩
    exact ⟨operand, rfl, shows⟩
  · rintro ⟨_, ⟨⟩, shows⟩
    exact ⟨rfl, shows⟩

end ConstantMessage

/-- A call whose array is spread has a lone exception just if one was wrapped in the array, or stood
before an empty one. -/
theorem SpreadArray.hasLoneException_replace (made : replace? expr = some replacement) :
    replacement.expr.hasLoneException = true ↔
      ∃ message value element, loneException [message, value] = true ∧
        (expr.messageArguments = [message, .newArray element [value]] ∨
          expr.messageArguments = [message, value, .newArray element []]) := by
  obtain ⟨shown, element, elements, nonempty, before, after⟩ := messageArguments_replace made
  rw [Expr.hasLoneException, after, before]
  constructor
  · intro lone
    obtain ⟨message, raw, value, whole, -⟩ := loneException_iff.mp lone
    rw [whole] at lone
    refine ⟨message, value, element, lone, ?_⟩
    cases shown with
    | nil => exact absurd rfl nonempty
    | cons first rest =>
      obtain ⟨rfl, tail⟩ := List.cons_eq_cons.mp whole
      cases rest with
      | nil =>
        cases tail
        exact .inl rfl
      | cons second others =>
        obtain ⟨rfl, empty⟩ := List.cons_eq_cons.mp tail
        obtain ⟨rfl, rfl⟩ := List.append_eq_nil_iff.mp empty
        exact .inr rfl
  · rintro ⟨message, value, kind, lone, whole | whole⟩
    · change _ = [message] ++ [.newArray kind [value]] at whole
      obtain ⟨rfl, same⟩ := List.append_inj' whole rfl
      cases same
      exact lone
    · change _ = [message, value] ++ [.newArray kind []] at whole
      obtain ⟨rfl, same⟩ := List.append_inj' whole rfl
      cases same
      exact lone

namespace Expr

/-- **Which replacements have a lone exception.** A call with a lone exception is read as the text
of its template, with the exception attached. Such a call is written

* for an event, just if the only argument of its message is an exception and none is attached, or its
  message is a text with braces and an attached exception;
* by the rule that gives calls templates, just if the message that it writes is such a message;
* by the rule for constant messages, just if the message was one operand that shows an exception;
* by the rule that spreads arrays, just if an exception was wrapped in the array, or stood before an
  empty one. -/
theorem hasLoneException_replaced (options : RecognizeOptions) (settings : Parameterize)
    (expr : Expr) (event : LogEvent) (target : Framework) (policy : SeverityPolicy)
    (receiver : Expr) :
    (∀ call, LogCall.recognize? options expr = some call → expr.hasLoneException = true →
      ∃ message raw value, expr.messageArguments = [message, value] ∧
        message.bare.stringLiteral? = some raw ∧ 0 < Template.placeholderCount raw ∧
        value.isThrowable = true ∧ call.message = .plain raw (some value)) ∧
    (target.templateStyle = .anonymous →
      (∀ marker, event.marker = some marker → target.isMarker marker = true) →
      event.message.Balanced →
        (event.emit target policy receiver).expr.hasLoneException =
          (event.message.isLoneException || event.message.isBracedText)) ∧
    (∀ replacement call framework, settings.replace? expr = some replacement →
      LogCall.recognize? { collapseAccessors := settings.collapseAccessors } expr = some call →
      call.origin = .framework framework → framework.templateStyle = .anonymous →
        replacement.expr.hasLoneException =
          ((settings.printed call.message).isLoneException ||
            (settings.printed call.message).isBracedText)) ∧
    (∀ replacement, ConstantMessage.replace? expr = some replacement →
      (replacement.expr.hasLoneException = true ↔
        ∃ operand, expr.messageArguments = [operand] ∧ ConstantMessage.ShowsException operand)) ∧
    (∀ replacement, SpreadArray.replace? expr = some replacement →
      (replacement.expr.hasLoneException = true ↔
        ∃ message value element, loneException [message, value] = true ∧
          (expr.messageArguments = [message, .newArray element [value]] ∨
            expr.messageArguments = [message, value, .newArray element []]))) := by
  refine ⟨?_, ?_, ?_, ?_, ?_⟩
  · intro call recognized lone
    exact LogCall.message_of_hasLoneException recognized lone
  · intro style typed balanced
    exact event.hasLoneException_emit policy receiver style typed balanced
  · intro replacement call framework replaced recognized logs style
    exact Parameterize.hasLoneException_replace replaced recognized logs style
  · intro replacement made
    exact ConstantMessage.hasLoneException_replace made
  · intro replacement made
    exact SpreadArray.hasLoneException_replace made

/-- An exception in the middle of a concatenation, one that is asked for its text, and one in an array
all become lone. -/
theorem hasLoneException_replaced_middle : let error := Expr.ident "e" (.named ClassName.throwable)
    let logger := Expr.ident "log" (.named "org.slf4j.Logger")
    let marker := Expr.ident "m" (.named "org.slf4j.Marker")
    let log (arguments : List Expr) : Expr :=
      .call logger "info" arguments (.onInstance "org.slf4j.Logger" "info")
    let template := Expr.string "a\x7b\x7db"
    let message : Message := { template := "a\x7b\x7db", arguments := [error] }
    let event : LogEvent := { severity := .info, message, marker := some marker }
    let middle := Expr.concat (.concat (.string "a") error) (.string "b")
    let request := Expr.call error "toString" []
      (.onInstanceReturning ClassName.throwable "toString" .string)
    (log [template, error]).hasLoneException = true ∧
      (∃ call, LogCall.recognize? {} (log [template, error]) = some call ∧
        call.message = .plain "a\x7b\x7db" (some error)) ∧
    (event.emit .slf4j {} logger).expr.hasLoneException = true ∧
    (∃ replacement, Parameterize.replace? {} (log [middle]) = some replacement ∧
      replacement.expr.hasLoneException = true) ∧
    (∃ replacement, ConstantMessage.replace? (log [marker, request]) = some replacement ∧
      replacement.expr.hasLoneException = true) ∧
    (∃ replacement, SpreadArray.replace? (log [template, .objectArray [error]]) = some replacement ∧
      replacement.expr.hasLoneException = true) := by
  intro error logger marker log template message event middle request
  have replaced (expr : Expr) := hasLoneException_replaced {} {} expr event .slf4j {} logger
  refine ⟨by decide, ?_, ?_, ?_, ?_, ?_⟩
  · let call : LogCall := {
      severity := .info, message := .plain "a\x7b\x7db" (some error), receiver := logger
      origin := .framework .slf4j, isCanonical := true
      method := .onInstance "org.slf4j.Logger" "info" }
    obtain ⟨reads, -⟩ := replaced (log [template, error])
    have recognized : LogCall.recognize? {} (log [template, error]) = some call := by decide
    obtain ⟨_, raw, value, whole, literal, -, -, plain⟩ := reads call recognized (by decide)
    have arguments : (log [template, error]).messageArguments = [template, error] := by decide
    rw [arguments] at whole
    cases whole
    cases literal
    exact ⟨call, recognized, plain⟩
  · obtain ⟨-, emits, -⟩ := replaced template
    rw [emits rfl (by rintro value ⟨⟩; decide) (by decide)]
    decide
  · let call : LogCall := {
      severity := .info, message, receiver := logger, origin := .framework .slf4j
      isCanonical := false, method := .onInstance "org.slf4j.Logger" "info" }
    obtain ⟨-, -, parameterizes, -⟩ := replaced (log [middle])
    have made : Parameterize.replace? {} (log [middle]) =
        some { expr := log [template, error] } := by decide
    refine ⟨_, made, ?_⟩
    rw [parameterizes _ call .slf4j made (by decide) rfl rfl]
    decide
  · obtain ⟨-, -, -, makesConstant, -⟩ := replaced (log [marker, request])
    have made : ConstantMessage.replace? (log [marker, request]) =
        some { expr := log [marker, .string "\x7b\x7d", error] } := by decide
    exact ⟨_, made,
      (makesConstant _ made).mpr ⟨request, by decide, error, by decide, .inr ⟨_, rfl⟩⟩⟩
  · obtain ⟨-, -, -, -, spreads⟩ := replaced (log [template, .objectArray [error]])
    have made : SpreadArray.replace? (log [template, .objectArray [error]]) =
        some { expr := log [template, error] } := by decide
    exact ⟨_, made,
      (spreads _ made).mpr ⟨template, error, .named ClassName.object, by decide, .inl (by decide)⟩⟩

/-- A call without a lone exception is given a template and has one then: the exception was printed in
the middle of the message, and now the braces are printed in its place. -/
theorem hasLoneException_of_middle : let error := Expr.ident "e" (.named ClassName.throwable)
    let logger := Expr.ident "log" (.named "org.slf4j.Logger")
    let log (arguments : List Expr) : Expr :=
      .call logger "info" arguments (.onInstance "org.slf4j.Logger" "info")
    let before := log [.concat (.concat (.string "a") error) (.string "b")]
    let after := log [.string "a\x7b\x7db", error]
    before.hasLoneException = false ∧
      (LogCall.recognize? {} before).map (·.message) =
        some { template := "a\x7b\x7db", arguments := [error] } ∧
      Parameterize.replace? {} before = some { expr := after } ∧
      after.hasLoneException = true ∧
      (LogCall.recognize? {} after).map (·.message) =
        some (.plain "a\x7b\x7db" (some error)) := by
  intro error logger log before after
  exact ⟨by decide, by decide, by decide, by decide, by decide⟩

end Expr

end LogCalls
