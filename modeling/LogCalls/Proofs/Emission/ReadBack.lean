import LogCalls.Emission.Log
import LogCalls.Proofs.CallSite.Message
import LogCalls.Proofs.Template.Codec

/-! # Written calls are read back

A call that is written for a framework with `{}` templates is recognised again, as the event that it
was written for. The few messages for which this fails are those whose arguments could be taken for
something else. -/

namespace LogCalls

variable {target : Framework}

/-! ## Methods and markers -/

/-- A severity is resolved to a tier that the framework has. -/
theorem SeverityPolicy.supports_resolve (policy : SeverityPolicy) (severity : Severity)
    (target : Framework) : target.supports (policy.resolve severity target) = true := by
  unfold resolve
  generalize policy.wanted severity = wanted
  cases target <;> cases wanted <;> rfl

/-- The method that logs with a severity is recognised as that. -/
theorem Signature.find?_methodFor {severity : Severity}
    (supported : target.supports severity = true) :
    find? target.loggerType (target.methodFor severity) =
      some { framework := some target, shape := .leveled severity } := by
  revert supported
  cases target <;> cases severity <;> decide

theorem resolveSignature?_methodFor {severity : Severity}
    (supported : target.supports severity = true) (select : Option Expr) :
    resolveSignature? select (target.methodFor severity)
        (.onInstance target.loggerType (target.methodFor severity)) =
      some { framework := some target, shape := .leveled severity } := by
  have declared : (ResolvedMethod.onInstance target.loggerType
      (target.methodFor severity)).declaringType = target.loggerType := rfl
  rw [resolveSignature?, declared, Signature.find?_methodFor supported]

namespace Framework

/-- A text is not a marker. -/
theorem isMarker_string (target : Framework) (raw : String) :
    target.isMarker (.string raw) = false := by
  cases target <;> rfl

/-- A marker that stands in front of a message is found. -/
theorem splitMarker_append {marker : Option Expr}
    (typed : ∀ value, marker = some value → target.isMarker value = true) {operand : Expr}
    (other : target.isMarker operand = false) (rest : List Expr) :
    target.splitMarker (marker.toList ++ operand :: rest) = (marker, operand :: rest) := by
  cases marker with
  | none =>
    rw [Option.toList_none, List.nil_append, splitMarker, other]
    rfl
  | some value =>
    rw [Option.toList_some, List.singleton_append, splitMarker, typed value rfl]
    rfl

end Framework

/-! ## Shapes of written messages -/

namespace Message

/-- A message that consists of one expression has no text of its own. -/
theorem sole?_eq_some_iff {message : Message} {only : Expr} : message.sole? = some only ↔
      message.template = "\x7b\x7d" ∧ message.arguments = [only] := by
  unfold sole?
  constructor
  · intro sole
    split at sole
    · rename_i found taken
      split at sole
      · rename_i bare
        cases sole
        exact ⟨bare, taken⟩
      · cases sole
    · cases sole
  · rintro ⟨bare, taken⟩
    rw [taken, bare]
    rfl

/-- A message that consists of one string has no text of its own. -/
theorem soleString?_eq_some_iff {message : Message} {only : Expr} :
    message.soleString? = some only ↔
      message.template = "\x7b\x7d" ∧ message.arguments = [only] ∧ only.isString = true := by
  rw [soleString?, Option.filter_eq_some_iff, sole?_eq_some_iff, and_assoc]

/-- A message is written as the one string that it consists of, or as its text, or as its template
with its arguments. A lone array is wrapped. -/
theorem templateArguments_cases (message : Message) :
    (∃ only, message.soleString? = some only ∧ message.templateArguments = [only]) ∨
    (message.arguments = [] ∧ message.templateArguments = [message.textLiteral]) ∨
    (∃ only, message.soleString? = none ∧ message.arguments = [only] ∧ message.error = none ∧
      only.isArray = true ∧
      message.templateArguments = [.string message.template, .objectArray [only]]) ∨
    (message.soleString? = none ∧ message.arguments ≠ [] ∧
      (∀ only, message.arguments = [only] → message.error = none → only.isArray = false) ∧
      message.templateArguments = .string message.template :: message.arguments) := by
  unfold templateArguments
  cases sole : message.soleString? with
  | some only => exact .inl ⟨only, rfl, rfl⟩
  | none =>
    right
    cases taken : message.arguments with
    | nil => exact .inl ⟨rfl, rfl⟩
    | cons argument others =>
      right
      cases others with
      | nil =>
        by_cases spread : message.error = none ∧ argument.isArray = true
        · obtain ⟨alone, array⟩ := spread
          refine .inl ⟨argument, rfl, rfl, alone, array, ?_⟩
          simp [alone, array]
        · refine .inr ⟨rfl, List.cons_ne_nil _ _, ?_, ?_⟩
          · rintro only ⟨⟩ alone
            simpa [alone] using spread
          · have wrapped : (message.error.isNone && argument.isArray) = false := by
              simpa using spread
            simp [wrapped]
      | cons second rest =>
        exact .inr ⟨rfl, List.cons_ne_nil _ _, (by simp), rfl⟩

section Parts

variable {message : Message} {holds : Expr → Prop} (wrapped : holds (.objectArray message.arguments))
  (each : ∀ expr ∈ message.arguments, holds expr)

include wrapped each

/-- What is true of texts, of all arguments and of an array of them is true of everything that is
written. -/
theorem forall_mem_templateArguments (text : ∀ raw, holds (.string raw)) :
    ∀ expr ∈ message.templateArguments, holds expr := by
  obtain ⟨only, sole, written⟩ | ⟨-, written⟩ | ⟨only, -, taken, -, -, written⟩ | ⟨-, -, -, written⟩ :=
    message.templateArguments_cases
  · obtain ⟨-, taken, -⟩ := soleString?_eq_some_iff.mp sole
    rw [written, ← taken]
    exact each
  · rw [written]
    exact List.forall_mem_singleton.mpr (text _)
  · rw [written, ← taken]
    exact List.forall_mem_cons.mpr ⟨text _, List.forall_mem_singleton.mpr wrapped⟩
  · rw [written]
    exact List.forall_mem_cons.mpr ⟨text _, each⟩

theorem of_indexedParameters : holds message.indexedParameters := by
  unfold indexedParameters
  split
  · rename_i argument taken
    split
    · exact taken ▸ wrapped
    · exact each argument (taken ▸ List.mem_cons_self)
  · exact wrapped

end Parts

end Message

/-! ## Reading each shape -/

namespace Expr

/-- An expression that is neither a literal nor a concatenation is a segment by itself. -/
theorem leaves_of_dissolves_eq_false {whole expr : Expr} (kept : expr.dissolves = false) :
    leaves whole expr = [.argument whole] := by
  fun_induction leaves whole expr with
  | case1 whole inner ih =>
    rw [dissolves_parens] at kept
    exact ih kept
  | case2 whole raw => cases kept
  | case3 whole left right type string =>
    have dissolved : (Expr.binary .add left right (some type)).dissolves = true := string
    rw [dissolved] at kept
    cases kept
  | case4 => rfl
  | case5 => rfl

theorem segments_of_dissolves_eq_false {expr : Expr} (kept : expr.dissolves = false) :
    expr.segments = [.argument expr] := by
  rw [segments, leaves_of_dissolves_eq_false kept]
  rfl

theorem operandKind_of_dissolves_eq_false {expr : Expr} (kept : expr.dissolves = false) :
    expr.operandKind ≠ .literal ∧ expr.operandKind ≠ .concatenation ∧
      (expr.operandKind = .throwable → expr.isThrowable = true) := by
  obtain ⟨text, sum⟩ : expr.bare.stringLiteral?.isSome = false ∧ expr.bare.isConcatenation = false :=
    by simpa [dissolves] using kept
  simp only [operandKind, text, sum, Bool.false_eq_true, if_false]
  split
  · simp
  · split
    · rename_i throwable
      simp [throwable]
    · simp

end Expr

namespace Message

variable {error : Option Expr}

/-- An exception that follows a message is the attached one. -/
theorem onlyError?_toList (throwable : ∀ value, error = some value → value.isThrowable = true) :
    onlyError? error.toList = some error := by
  cases error with
  | none => rfl
  | some value =>
    rw [Option.toList_some, onlyError?, throwable value rfl]
    rfl

/-- A value that is neither a literal nor a concatenation is read as a message of that value alone. -/
theorem extract?_value (style : TemplateStyle) {only : Expr}
    (kept : only.dissolves = false) (known : only.staticType.isSome = true)
    (throwable : ∀ value, error = some value → value.isThrowable = true)
    (unmoved : error = none → only.isThrowable = false) :
    extract? style false only error.toList =
      some { message := { template := "\x7b\x7d", arguments := [only], error }
             isCanonical := true } := by
  obtain ⟨notLiteral, notSum, thrown⟩ := Expr.operandKind_of_dissolves_eq_false kept
  obtain ⟨type, typed⟩ := Option.isSome_iff_exists.mp known
  have readable : readable [.argument only] = true := by simp [readable, known]
  have made : ofSegments { explicitError := error } [.argument only] =
      { template := "\x7b\x7d", arguments := [only], error } := by
    cases error with
    | some value => rfl
    | none =>
      -- Nothing follows the value, so it would be moved to the end if it were an exception.
      have stays : only.operandKind ≠ .throwable := by
        intro moved
        rw [unmoved rfl] at thrown
        exact absurd (thrown moved) (by simp)
      simp only [ofSegments, splitError, List.getLast?_singleton, stays, if_false]
      rfl
  unfold extract?
  simp only [notLiteral, if_false, onlyError?_toList throwable, typed, Option.bind_eq_bind,
    Option.bind_some, Expr.segments_of_dissolves_eq_false kept, readable, made, if_true]
  cases error <;> simp [notSum]

/-- The text of a message without arguments is read as that message. -/
theorem extract?_textLiteral (style : TemplateStyle) {message : Message}
    (balanced : message.Balanced) (bare : message.arguments = [])
    (throwable : ∀ value, message.error = some value → value.isThrowable = true) :
    extract? style false message.textLiteral message.error.toList =
      some { message, isCanonical := true } := by
  -- Without placeholders there is one piece, and escaping it gives the template back.
  have length := balanced.length_pieces
  rw [bare] at length
  obtain ⟨piece, single⟩ := List.length_eq_one_iff.mp length
  have text : message.text = piece := by simp [Message.text, single, String.join]
  have representable : Template.isRepresentable piece = true := by
    apply Template.isRepresentable_of_mem_pieces
    rw [← pieces, single]
    exact List.mem_cons_self
  have escaped : Template.escape piece = message.template := by
    let values : Nat → Expr := fun _ => message.textLiteral
    rw [← Template.template_alternate_single values, ← single]
    exact Template.template_alternate_pieces values message.template
  have whole : plain piece message.error = message := by
    rw [plain, escaped, ← bare]
  have read : ofLiteral? style message.textLiteral message.error.toList = some message := by
    change ofTemplate? style message.text message.error.toList = some message
    unfold ofTemplate?
    rw [onlyError?_toList throwable]
    dsimp only
    rw [verbatim?, text, representable, if_pos rfl, whole]
  have literal : message.textLiteral.operandKind = .literal := rfl
  rw [extract?, if_pos literal, read]
  rfl

/-- A template takes as many arguments as it has placeholders, and an exception after them. -/
theorem ofArguments?_append {template : String} {arguments : List Expr}
    (nonempty : arguments ≠ []) (count : Template.placeholderCount template = arguments.length)
    (throwable : ∀ value, error = some value → value.isThrowable = true) :
    ofArguments? template (arguments ++ error.toList) = some { template, arguments, error } := by
  cases error with
  | none =>
    have last := List.getLast?_eq_some_getLast nonempty
    simp [ofArguments?, last, count]
  | some value => simp [ofArguments?, count, throwable value rfl]

/-- Arguments of a template are more than an exception, unless they are a lone exception. -/
theorem onlyError?_append {arguments : List Expr} (nonempty : arguments ≠ [])
    (alone : ∀ only, arguments = [only] → error = none → only.isThrowable = false) :
    onlyError? (arguments ++ error.toList) = none := by
  cases arguments with
  | nil => exact absurd rfl nonempty
  | cons first rest =>
    cases rest with
    | cons second others => rfl
    | nil =>
      cases error with
      | some value => rfl
      | none => simp [onlyError?, alone first rfl rfl]

/-- A template with as many arguments as placeholders is read as that message, unless a lone exception
is taken for the attached one. -/
theorem extract?_template {message : Message} (balanced : message.Balanced)
    (nonempty : message.arguments ≠ [])
    (throwable : ∀ value, message.error = some value → value.isThrowable = true)
    (alone : ∀ only, message.arguments = [only] → message.error = none → only.isThrowable = false) :
    extract? .anonymous false (.string message.template)
        (message.arguments ++ message.error.toList) =
      some { message, isCanonical := true } := by
  have read : ofLiteral? .anonymous (.string message.template)
      (message.arguments ++ message.error.toList) = some message := by
    change ofTemplate? .anonymous message.template _ = some message
    unfold ofTemplate?
    rw [onlyError?_append nonempty alone]
    exact ofArguments?_append nonempty balanced throwable
  have literal : (Expr.string message.template).operandKind = .literal := rfl
  rw [extract?, if_pos literal, read]
  rfl

/-! ## Reading what was written -/

/-- Nothing that is written for the message can be taken for something else. A text or a concatenation in
parentheses counts as one, as it does for `Expr.dissolves`. -/
structure Unambiguous (message : Message) (target : Framework) : Prop where
  /-- What is attached is an exception. -/
  throwable : ∀ error, message.error = some error → error.isThrowable = true
  /-- A lone argument is no array, which would be spread, and no exception, which would be attached. -/
  alone : ∀ only, message.arguments = [only] → message.error = none →
    only.isArray = false ∧ only.isThrowable = false
  /-- A string that is written by itself is not taken apart, and is not taken for a marker. -/
  sole : ∀ only, message.soleString? = some only →
    only.dissolves = false ∧ target.isMarker only = false

/-- What is written for a message is read as that message, and starts with no marker. -/
theorem extract?_templateArguments {message : Message}
    (balanced : message.Balanced) (clear : message.Unambiguous target) :
    ∃ operand rest, message.templateArguments ++ message.error.toList = operand :: rest ∧
      target.isMarker operand = false ∧
      extract? .anonymous false operand rest = some { message, isCanonical := true } := by
  obtain ⟨only, sole, written⟩ | ⟨bare, written⟩ | ⟨only, -, taken, alone, array, -⟩ |
    ⟨-, nonempty, -, written⟩ := message.templateArguments_cases
  -- The one shape that can start with a marker is a string that is written by itself.
  · obtain ⟨template, taken, string⟩ := soleString?_eq_some_iff.mp sole
    obtain ⟨kept, notMarker⟩ := clear.sole only sole
    have known : only.staticType.isSome = true := by
      cases found : only.staticType with
      | none => simp [Expr.isString, Expr.hasType, found] at string
      | some type => rfl
    have read := extract?_value .anonymous kept known clear.throwable
      (fun alone => (clear.alone only taken alone).2)
    rw [← template, ← taken] at read
    rw [written]
    exact ⟨only, message.error.toList, rfl, notMarker, read⟩
  · rw [written]
    exact ⟨message.textLiteral, message.error.toList, rfl, target.isMarker_string _,
      extract?_textLiteral .anonymous balanced bare clear.throwable⟩
  · -- A lone array would have to be wrapped.
    have other := (clear.alone only taken alone).1
    rw [array] at other
    cases other
  · rw [written]
    exact ⟨.string message.template, message.arguments ++ message.error.toList, rfl,
      target.isMarker_string _, extract?_template balanced nonempty clear.throwable
        (fun only taken alone => (clear.alone only taken alone).2)⟩

end Message

namespace LogCall

/-- **Written calls are read back.** For a framework with `{}` templates, the call that is written for
an event is recognised as a call of that framework with the same message, marker and receiver, with
the severity that the policy gives, and as canonical already. The message has one placeholder for each
argument, and none of its parts can be taken for something else. -/
theorem recognize?_emit (event : LogEvent) (target : Framework) (policy : SeverityPolicy)
    (receiver : Expr) (style : target.templateStyle = .anonymous)
    (known : receiver.staticType.isSome = true)
    (typed : ∀ marker, event.marker = some marker → target.isMarker marker = true)
    (balanced : event.message.Balanced) (clear : event.message.Unambiguous target) :
    let severity := policy.resolve event.severity target
    recognize? {} (event.emit target policy receiver).expr = some {
      severity, message := event.message, marker := event.marker, receiver
      origin := .framework target, isCanonical := true
      method := .onInstance target.loggerType (target.methodFor severity) } := by
  intro severity
  obtain ⟨operand, rest, written, notMarker, read⟩ :=
    Message.extract?_templateArguments balanced clear
  have emitted : (event.emit target policy receiver).expr =
      target.leveledCall severity receiver (event.marker.toList ++ operand :: rest) := by
    rw [LogEvent.emit, style, ← written, ← List.append_assoc]
  -- The method's name leads back to the severity, as the policy picks one that has a method.
  have supported : target.supports severity = true :=
    policy.supports_resolve event.severity target
  have resolved := resolveSignature?_methodFor supported (some receiver)
  obtain ⟨type, found⟩ := Option.isSome_iff_exists.mp known
  rw [emitted, Framework.leveledCall, Expr.call, recognize?, resolved]
  simp only [Option.bind_eq_bind, Option.bind_some, ofFramework?, found,
    Framework.splitMarker_append typed notMarker, style, read, Option.pure_def]

/-- A template with escaped braces and a placeholder, a marker and an attached exception, reported with
a severity that the policy raises to one that the framework lacks. -/
theorem recognize?_emit_marked : let error := Expr.ident "e" (.named ClassName.throwable)
    let marker := Expr.ident "m" (.named "org.slf4j.Marker")
    let logger := Expr.ident "log" (.named "org.slf4j.Logger")
    let message : Message :=
      { template := "a\\\\\x7b\x7d \x7b\x7d", arguments := [.ident "x" .string], error := some error }
    let event : LogEvent := { severity := .info, message, marker := some marker }
    let policy : SeverityPolicy :=
      { overrides := [(.info, .fatal)], ascending := List.pairwise_singleton _ _ }
    (event.emit .slf4j policy logger).expr =
        .call logger "error" [marker, .string message.template, .ident "x" .string, error]
          (.onInstance "org.slf4j.Logger" "error") ∧
      recognize? {} (event.emit .slf4j policy logger).expr = some {
        severity := .error, message, marker := some marker, receiver := logger
        origin := .framework .slf4j, isCanonical := true
        method := .onInstance "org.slf4j.Logger" "error" } := by
  intro error marker logger message event policy
  refine ⟨by decide, recognize?_emit event .slf4j policy logger rfl rfl ?_ (by decide) ?_⟩
  · rintro value ⟨⟩
    decide
  · refine ⟨?_, ?_, ?_⟩
    · rintro value ⟨⟩
      decide
    · rintro only - ⟨⟩
    · rintro only ⟨⟩

end LogCall

end LogCalls
