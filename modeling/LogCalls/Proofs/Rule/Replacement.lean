import LogCalls.Proofs.Emission.ReadBack
import LogCalls.Rule.Parameterize
import LogCalls.Rule.SpreadArray

/-! # How calls are replaced

Where the message of a call stands among its arguments, and what the rules for templates and for arrays
of parameters make of the call. -/

namespace LogCalls

variable {expr : Expr} {replacement : Replacement} {arguments : List Expr} {call : LogCall}

/-! ## Where the message stands -/

theorem Expr.staticType_bare (expr : Expr) : expr.bare.staticType = expr.staticType := by
  fun_induction bare expr with
  | case1 inner ih => rw [ih, staticType_parens]
  | case2 => rfl

namespace Framework

/-- A text in parentheses is not a marker either. -/
theorem isMarker_of_literal {operand : Expr} (literal : operand.operandKind = .literal)
    (framework : Framework) : framework.isMarker operand = false := by
  obtain ⟨raw, text⟩ := Expr.operandKind_eq_literal_iff.mp literal
  rw [← framework.isMarker_string raw, isMarker, isMarker]
  simp only [Expr.hasType, ← operand.staticType_bare, Expr.stringLiteral?_eq_some_iff.mp text]

theorem isMarker_of_splitMarker {framework : Framework} {rest : List Expr} {marker : Expr}
    (split : framework.splitMarker arguments = (some marker, rest)) :
    framework.isMarker marker = true := by
  cases arguments with
  | nil => cases split
  | cons first others =>
    rw [splitMarker] at split
    split at split
    · rename_i typed
      cases split
      exact typed
    · cases split

/-- The arguments after a marker, if one stands at a place, are what is left when it is split off. -/
theorem drop_eq_splitMarker (framework : Framework) (arguments : List Expr) (offset : Nat) :
    arguments.drop (if arguments[offset]?.any framework.isMarker then offset + 1 else offset) =
      (framework.splitMarker (arguments.drop offset)).2 := by
  cases standing : arguments.drop offset with
  | nil =>
    have missing : arguments[offset]? = none := by
      rw [← List.head?_drop, standing, List.head?_nil]
    rw [missing, Option.any_none, if_neg Bool.false_ne_true, standing]
    rfl
  | cons first rest =>
    have found : arguments[offset]? = some first := by
      rw [← List.head?_drop, standing, List.head?_cons]
    have after : arguments.drop (offset + 1) = rest := by
      rw [← List.drop_drop, standing, List.drop_one, List.tail_cons]
    rw [splitMarker, found, Option.any_some]
    split
    · exact after
    · exact standing

/-- A string literal is not a marker, also in parentheses. -/
theorem isMarker_of_stringLiteral? {framework : Framework} {raw : String}
    (literal : expr.bare.stringLiteral? = some raw) : framework.isMarker expr = false := by
  have same : expr.staticType = (Expr.string raw).staticType := by
    rw [← expr.staticType_bare, Expr.stringLiteral?_eq_some_iff.mp literal]
  rw [← framework.isMarker_string raw]
  simp only [isMarker, Expr.hasType, same]

end Framework

/-- The message of a call that takes a `{}` template, with the arguments after it. -/
def Expr.messageArguments : Expr → List Expr
  | .methodCall select name arguments method =>
    match SpreadArray.messageIndex? (.methodCall select name arguments method) with
    | some index => arguments.drop index
    | none => []
  | _ => []

namespace SpreadArray

/-- How many arguments stand before the marker and the message of a call that logs. -/
def messageOffset? : CallShape → Option Nat
  | .leveled _ => some 0
  | .levelArgument => some 1
  | _ => none

variable {select : Option Expr} {name : String} {method : ResolvedMethod} {framework : Framework}
  {shape : CallShape}

/-- In a call that takes a `{}` template, the message follows the marker. -/
theorem messageIndex?_eq
    (resolved : resolveSignature? select name method = some ⟨some framework, shape⟩)
    (style : framework.templateStyle = .anonymous) (arguments : List Expr) :
    messageIndex? (.methodCall select name arguments (some method)) =
      (messageOffset? shape).map fun offset =>
        if arguments[offset]?.any framework.isMarker then offset + 1 else offset := by
  cases shape <;> simp [messageIndex?, messageOffset?, resolved, style]

/-- A call whose message has a place is a call that logs with a `{}` template. -/
theorem messageIndex?_cases {found : Option ResolvedMethod} {index : Nat}
    (stands : messageIndex? (.methodCall select name arguments found) = some index) :
    ∃ method framework shape offset, found = some method ∧
      resolveSignature? select name method = some ⟨some framework, shape⟩ ∧
      framework.templateStyle = .anonymous ∧ messageOffset? shape = some offset ∧
      index = if arguments[offset]?.any framework.isMarker then offset + 1 else offset := by
  cases found with
  | none => cases stands
  | some method =>
    have read := stands
    simp only [messageIndex?, Option.bind_eq_bind, Option.bind_eq_some_iff] at read
    obtain ⟨⟨called, shape⟩, resolved, framework, same, read⟩ := read
    cases same
    split at read
    · rename_i style
      rw [messageIndex?_eq resolved style] at stands
      obtain ⟨offset, known, same⟩ := Option.map_eq_some_iff.mp stands
      exact ⟨method, framework, shape, offset, rfl, resolved, style, known, same.symm⟩
    · cases read

/-- The message and its arguments are what is left when the marker is split off. -/
theorem messageArguments_eq
    (resolved : resolveSignature? select name method = some ⟨some framework, shape⟩)
    (style : framework.templateStyle = .anonymous) {offset : Nat}
    (known : messageOffset? shape = some offset) (arguments : List Expr) :
    (Expr.methodCall select name arguments (some method)).messageArguments =
      (framework.splitMarker (arguments.drop offset)).2 := by
  rw [Expr.messageArguments, messageIndex?_eq resolved style, known]
  exact framework.drop_eq_splitMarker arguments offset

/-- A call that has a message is a call that logs with a `{}` template. -/
theorem messageArguments_cases {found : Option ResolvedMethod}
    (nonempty : (Expr.methodCall select name arguments found).messageArguments ≠ []) :
    ∃ method framework shape offset, found = some method ∧
      resolveSignature? select name method = some ⟨some framework, shape⟩ ∧
      framework.templateStyle = .anonymous ∧ messageOffset? shape = some offset ∧
      (Expr.methodCall select name arguments found).messageArguments =
        (framework.splitMarker (arguments.drop offset)).2 := by
  cases stands : messageIndex? (.methodCall select name arguments found) with
  | none =>
    rw [Expr.messageArguments, stands] at nonempty
    exact absurd rfl nonempty
  | some index =>
    obtain ⟨method, framework, shape, offset, rfl, resolved, style, known, -⟩ :=
      messageIndex?_cases stands
    exact ⟨method, framework, shape, offset, rfl, resolved, style, known,
      messageArguments_eq resolved style known arguments⟩

end SpreadArray

namespace LogCall

/-- A recognised call is a call of a framework, in which the message follows the level and the marker,
or it has at most one argument. -/
theorem recognize?_messageOffset {options : RecognizeOptions}
    (recognized : recognize? options expr = some call) :
    ∃ receiver name arguments method,
      expr = .methodCall (some receiver) name arguments (some method) ∧
      ((∃ framework shape offset operand trailing found, call.origin = .framework framework ∧
          resolveSignature? (some receiver) name method = some ⟨some framework, shape⟩ ∧
          SpreadArray.messageOffset? shape = some offset ∧
          framework.splitMarker (arguments.drop offset) = (call.marker, operand :: trailing) ∧
          Message.extract? framework.templateStyle options.collapseAccessors operand trailing =
            some found ∧
          call.message = found.message) ∨
        (arguments.length ≤ 1 ∧ call.origin.framework? = none)) := by
  obtain ⟨receiver, name, arguments, method, rfl, origin⟩ := recognize?_cases recognized
  refine ⟨receiver, name, arguments, method, rfl, ?_⟩
  obtain ⟨framework, severity, resolved, made⟩ |
    ⟨framework, severity, level, others, resolved, rfl, -, made⟩ | made | made := origin
  · obtain ⟨marker, operand, trailing, found, split, read, rfl⟩ := ofFramework?_cases made
    exact .inl ⟨framework, _, 0, operand, trailing, found, rfl, resolved, rfl, split, read, rfl⟩
  · obtain ⟨marker, operand, trailing, found, split, read, rfl⟩ := ofFramework?_cases made
    exact .inl ⟨framework, _, 1, operand, trailing, found, rfl, resolved, rfl, split, read, rfl⟩
  · obtain ⟨rfl, -, rfl⟩ := ofStackTrace?_cases made
    exact .inr ⟨Nat.zero_le 1, rfl⟩
  · obtain ⟨stream, value, found, -, rfl, -, -, -, console⟩ := ofConsole?_cases made
    rw [console]
    exact .inr ⟨Nat.le_refl 1, rfl⟩

/-- The marker of a recognised call has the type of the framework's markers. -/
theorem isMarker_marker {options : RecognizeOptions}
    {framework : Framework} (recognized : recognize? options expr = some call)
    (logs : call.origin = .framework framework) {marker : Expr}
    (marked : call.marker = some marker) : framework.isMarker marker = true := by
  obtain ⟨receiver, name, arguments, method, rfl, place⟩ := recognize?_messageOffset recognized
  obtain ⟨called, shape, offset, operand, trailing, found, origin, -, -, split, -, -⟩ |
    ⟨-, none⟩ := place
  · rw [logs] at origin
    cases origin
    rw [marked] at split
    exact Framework.isMarker_of_splitMarker split
  · rw [logs] at none
    cases none

end LogCall

namespace Parameterize

variable {message : Message}

/-! ## Templates -/

/-- The message that is written, without the calls for the text of an argument that are taken off. -/
def printed (settings : Parameterize) (message : Message) : Message :=
  if settings.stripToString then { message with arguments := message.arguments.map strip }
  else message

@[simp] theorem error_printed (settings : Parameterize) (message : Message) :
    (settings.printed message).error = message.error := by
  unfold printed
  split <;> rfl

/-- Arguments of which none asks for its text are written as they are. -/
theorem printed_of_unstripped (settings : Parameterize)
    (bare : message.arguments.any (stripped? · |>.isSome) = false) :
    settings.printed message = message := by
  have each : ∀ argument ∈ message.arguments, strip argument = id argument := by
    intro argument member
    have unstripped : stripped? argument = none := by
      simpa using List.any_eq_false.mp bare argument member
    rw [strip, unstripped, Option.getD_none, id]
  rw [printed, List.map_congr_left each, List.map_id, ite_self]

theorem printed_of_not_strips (settings : Parameterize)
    (kept : (settings.stripToString && message.arguments.any (stripped? · |>.isSome)) = false) :
    settings.printed message = message := by
  cases on : settings.stripToString with
  | false => rw [printed, on, if_neg Bool.false_ne_true]
  | true =>
    rw [on, Bool.true_and] at kept
    exact settings.printed_of_unstripped kept

/-- The rule writes what was recognised anew. -/
theorem replace?_cases {settings : Parameterize}
    (replaced : settings.replace? expr = some replacement) :
    ∃ call framework,
      LogCall.recognize? { collapseAccessors := settings.collapseAccessors } expr = some call ∧
      call.origin = .framework framework ∧
      replacement = LogEvent.emit { call.toLogEvent with message := settings.printed call.message }
        framework {} call.receiver := by
  unfold replace? at replaced
  simp only [Option.bind_eq_bind, Option.bind_eq_some_iff] at replaced
  obtain ⟨call, recognized, framework, called, rest⟩ := replaced
  have origin : call.origin = .framework framework := by
    unfold LogOrigin.framework? at called
    split at called
    · rename_i same
      cases called
      exact same
    · cases called
  refine ⟨call, framework, recognized, origin, ?_⟩
  split at rest
  · cases rest
  · split at rest
    · cases rest
    · split at rest
      · cases rest
      · cases rest
        cases strips : settings.stripToString &&
            call.message.arguments.any (stripped? · |>.isSome) with
        | true =>
          have on : settings.stripToString = true := (Bool.and_eq_true_iff.mp strips).1
          rw [printed, if_pos on, if_pos rfl]
        | false => rw [settings.printed_of_not_strips strips, if_neg Bool.false_ne_true]

/-- The rule leaves alone what it has no template for, and what is written canonically already unless
calls for texts are stripped from it. -/
theorem replace?_guards {settings : Parameterize} {framework : Framework}
    (replaced : settings.replace? expr = some replacement)
    (recognized : LogCall.recognize? { collapseAccessors := settings.collapseAccessors } expr =
      some call) (logs : call.origin = .framework framework) :
    framework.templateStyle ≠ .concatenation ∧
      ¬ (framework.templateStyle = .indexed ∧ call.message.error ≠ none ∧
        call.message.arguments ≠ []) ∧
      (call.isCanonical = false ∨ settings.stripToString = true ∧
        call.message.arguments.any (stripped? · |>.isSome) = true) := by
  unfold replace? at replaced
  rw [recognized] at replaced
  simp only [logs, LogOrigin.framework?, Option.bind_eq_bind, Option.bind_some] at replaced
  split at replaced
  · cases replaced
  · rename_i templates
    split at replaced
    · cases replaced
    · rename_i carried
      split at replaced
      · cases replaced
      · rename_i changes
        refine ⟨fun style => templates (by simp [style]), fun ⟨style, error, arguments⟩ => ?_, ?_⟩
        · refine carried ?_
          simp [style, arguments, Option.isSome_iff_ne_none, error]
        · cases canonical : call.isCanonical with
          | false => exact .inl rfl
          | true =>
            rw [canonical, Bool.true_and, Bool.not_eq_true', Bool.not_eq_false,
              Bool.and_eq_true] at changes
            exact .inr changes

theorem balanced_printed (settings : Parameterize)
    (balanced : message.Balanced) : (settings.printed message).Balanced := by
  unfold printed
  split
  · rw [Message.Balanced, List.length_map]
    exact balanced
  · exact balanced

end Parameterize

namespace SpreadArray

/-! ## Arrays of parameters -/

/-- The array at the end of a call is replaced by its elements, unless they would be spread in turn. -/
theorem replace?_cases (made : replace? expr = some replacement) :
    ∃ select name leading element elements method index,
      expr = .methodCall select name (leading ++ [.newArray element elements]) method ∧
      element.typeName = ClassName.object ∧ messageIndex? expr = some index ∧
      index < leading.length ∧ ConstantMessage.mayBeSpread elements = false ∧
      replacement = { expr := .methodCall select name (leading ++ elements) method } := by
  unfold replace? at made
  obtain ⟨index, stands, rest⟩ := Option.bind_eq_some_iff.mp made
  cases expr with
  | methodCall select name arguments method =>
    obtain ⟨⟨leading, elements⟩, split, rest⟩ := Option.bind_eq_some_iff.mp rest
    dsimp only at rest
    split at rest
    · cases rest
    · rename_i accepted
      cases rest
      simp only [Bool.or_eq_true, decide_eq_true_eq, not_or, Nat.not_le, Bool.not_eq_true] at accepted
      obtain ⟨behind, kept⟩ := accepted
      unfold splitArray? at split
      split at split
      · rename_i element found last
        split at split
        · rename_i objects
          cases split
          obtain ⟨front, rfl⟩ := List.getLast?_eq_some_iff.mp last
          rw [List.dropLast_concat] at behind ⊢
          exact ⟨select, name, front, element, elements, method, index, rfl, objects, stands, behind,
            kept, rfl⟩
        · cases split
      · cases split
  | _ => cases rest

/-- Spreading the array leaves the message where it is. -/
theorem messageArguments_replace (made : replace? expr = some replacement) :
    ∃ shown element elements, shown ≠ [] ∧
      expr.messageArguments = shown ++ [.newArray element elements] ∧
      replacement.expr.messageArguments = shown ++ elements := by
  obtain ⟨select, name, leading, element, elements, method, index, rfl, -, stands, behind, -, rfl⟩ :=
    replace?_cases made
  obtain ⟨method, framework, shape, offset, rfl, resolved, style, known, place⟩ :=
    messageIndex?_cases stands
  -- The message and the marker before it stand among the leading arguments, which stay.
  have within : offset < leading.length := by
    split at place <;> omega
  have same (rest : List Expr) :
      messageIndex? (.methodCall select name (leading ++ rest) (some method)) = some index := by
    rw [messageIndex?_eq resolved style, known, Option.map_some, place,
      List.getElem?_append_left within, List.getElem?_append_left within]
  have split (rest : List Expr) :
      (Expr.methodCall select name (leading ++ rest) (some method)).messageArguments =
        leading.drop index ++ rest := by
    rw [Expr.messageArguments, same]
    exact List.drop_append_of_le_length (Nat.le_of_lt behind)
  refine ⟨leading.drop index, element, elements, ?_, split _, split _⟩
  rw [ne_eq, List.drop_eq_nil_iff]
  omega

end SpreadArray

end LogCalls
