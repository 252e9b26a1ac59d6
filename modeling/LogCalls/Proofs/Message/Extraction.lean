import LogCalls.Message.Extraction

/-! # How messages are read

For each way of reading a message out of a call, what has to hold for it to succeed and which
message it gives. The later proofs use these statements and not the definitions. -/

namespace LogCalls

variable {trailing parameters : List Expr} {operand : Expr} {message : Message}

/-! ## Literals -/

namespace Expr

theorem stringLiteral?_eq_some_iff {expr : Expr} {raw : String} :
    expr.stringLiteral? = some raw ↔ expr = .string raw := by
  constructor
  · intro literal
    unfold stringLiteral? at literal
    split at literal
    · cases literal
      rfl
    · cases literal
  · rintro rfl
    rfl

/-- An operand is a literal as far as messages go just if there is one inside its parentheses. -/
theorem operandKind_eq_literal_iff :
    operand.operandKind = .literal ↔ ∃ raw, operand.bare.stringLiteral? = some raw := by
  rw [← Option.isSome_iff_exists]
  unfold operandKind
  split
  · rename_i literal
    simp [literal]
  · rename_i other
    simp only [other]
    split
    · simp
    · split
      · simp
      · split <;> simp

end Expr

namespace Message

/-- The arguments after a message that are none, or one exception, are the optional exception. -/
theorem onlyError?_eq_some {error : Option Expr}
    (only : onlyError? trailing = some error) : trailing = error.toList := by
  unfold onlyError? at only
  split at only
  · cases only
    rfl
  · split at only
    · cases only
      rfl
    · cases only
  · cases only

/-- A template with `{}` takes all arguments, or all but a last one that is an exception. -/
theorem ofArguments?_cases {template : String} {arguments : List Expr}
    (read : ofArguments? template arguments = some message) :
    (∃ shown error, arguments = shown ++ [error] ∧ error.isThrowable = true ∧
      Template.placeholderCount template = shown.length ∧
      message = { template, arguments := shown, error := some error }) ∨
    (Template.placeholderCount template = arguments.length ∧
      message = { template, arguments }) := by
  unfold ofArguments? at read
  split at read
  · cases read
  · rename_i last found
    -- The arguments are not empty, so they are their last one and those before it.
    have nonempty : arguments ≠ [] := by
      rintro rfl
      cases found
    have whole : arguments.dropLast ++ [last] = arguments := by
      rw [List.getLast?_eq_some_getLast nonempty] at found
      cases found
      exact List.dropLast_concat_getLast nonempty
    dsimp only at read
    split at read
    · rename_i attached
      obtain ⟨throwable, count⟩ : last.isThrowable = true ∧
          Template.placeholderCount template + 1 = arguments.length := by
        simpa using attached
      have length := congrArg List.length whole
      rw [List.length_append, List.length_singleton] at length
      cases read
      exact .inl ⟨arguments.dropLast, last, whole.symm, throwable, by omega, rfl⟩
    · split at read
      · rename_i count
        cases read
        exact .inr ⟨count, rfl⟩
      · cases read

end Message

namespace Indexed

/-- A pattern is read as a message when all parameters are referred to, in order or without it making
a difference, and its texts can be represented. -/
theorem message?_cases {pattern : String} (read : message? pattern parameters = some message) :
    ∃ items segments, items? pattern = some items ∧ segments? parameters items = some segments ∧
      (∀ index < parameters.length, index ∈ references items) ∧
      (references items = List.range parameters.length ∨
        ∀ parameter ∈ parameters, parameter.isPure = true) ∧
      Segment.representable segments = true ∧
      message = { template := Segment.template segments
                  arguments := Segment.arguments segments } := by
  unfold message? at read
  simp only [Option.bind_eq_bind, Option.bind_eq_some_iff] at read
  obtain ⟨items, readItems, segments, readSegments, rest⟩ := read
  split at rest
  · cases rest
  · rename_i all
    split at rest
    · cases rest
    · rename_i ordered
      split at rest
      · cases rest
      · rename_i representable
        cases rest
        refine ⟨items, segments, readItems, readSegments, ?_, ?_, by simpa using representable, rfl⟩
        · simpa using all
        · by_cases inOrder : references items = List.range parameters.length
          · exact .inl inOrder
          · exact .inr (by simpa [inOrder] using ordered)

/-- Under these conditions a pattern is read as a message. -/
theorem message?_of_segments {pattern : String} {items : List Item}
    {segments : List Segment} (read : items? pattern = some items)
    (made : segments? parameters items = some segments)
    (all : ∀ index < parameters.length, index ∈ references items)
    (ordered : references items = List.range parameters.length ∨
      ∀ parameter ∈ parameters, parameter.isPure = true)
    (representable : Segment.representable segments = true) :
    message? pattern parameters =
      some { template := Segment.template segments, arguments := Segment.arguments segments } := by
  have unordered := fun disordered => ordered.resolve_left disordered
  simpa [message?, read, made, representable] using And.intro all unordered

end Indexed

namespace Message

variable {style : TemplateStyle}

/-- Parameters are the elements of the one array that follows, or the one expression that does. -/
theorem parameters?_cases (given : parameters? trailing = some parameters) :
    (∃ element, trailing = [.newArray element parameters]) ∨
      ∃ parameter, trailing = [parameter] ∧ parameters = [parameter] ∧
        ∀ element elements, parameter ≠ .newArray element elements := by
  unfold parameters? at given
  split at given
  · cases given
    exact .inl ⟨_, rfl⟩
  · rename_i parameter scalar
    cases given
    exact .inr ⟨parameter, rfl, rfl, fun element elements same => scalar element elements (by rw [same])⟩
  · cases given

/-- A literal is read as plain text when nothing but an exception follows it, and else as a template
in the style of the framework. -/
theorem ofTemplate?_cases {raw : String} (read : ofTemplate? style raw trailing = some message) :
    (∃ error, onlyError? trailing = some error ∧ Template.isRepresentable raw = true ∧
      message = plain raw error) ∨
    (onlyError? trailing = none ∧ style = .anonymous ∧
      ofArguments? raw trailing = some message) ∨
    (onlyError? trailing = none ∧ style = .indexed ∧
      ∃ parameters, parameters? trailing = some parameters ∧
        Indexed.message? raw parameters = some message) := by
  unfold ofTemplate? at read
  split at read
  · rename_i error only
    unfold verbatim? at read
    split at read
    · rename_i representable
      cases read
      exact .inl ⟨error, only, representable, rfl⟩
    · cases read
  · rename_i more
    cases style with
    | anonymous => exact .inr (.inl ⟨more, rfl, read⟩)
    | indexed => exact .inr (.inr ⟨more, rfl, Option.bind_eq_some_iff.mp read⟩)
    | concatenation => cases read

/-! ## Segments -/

/-- An exception is taken off the end of the segments, or they are kept. -/
theorem splitError_cases (segments : List Segment) : (∃ expr, expr.operandKind = .throwable ∧
      segments = (splitError segments).1 ++ [.argument expr] ∧
      (splitError segments).2 = some expr) ∨
    splitError segments = (segments, none) := by
  unfold splitError
  split
  · rename_i expr last
    split
    · rename_i throwable
      refine .inl ⟨expr, throwable, ?_, rfl⟩
      obtain ⟨front, rfl⟩ := List.getLast?_eq_some_iff.mp last
      rw [List.dropLast_concat]
    · exact .inr rfl
  · exact .inr rfl

/-- The segments that are shown beside an attached exception. -/
def shown (collapse : Bool) (error : Option Expr) (kept : List Segment) : List Segment :=
  match error with
  | some error => if collapse then kept.map (collapseAccessor error) else kept
  | none => kept

@[simp] theorem shown_false (error : Option Expr) (kept : List Segment) :
    shown false error kept = kept := by
  cases error <;> rfl

/-- The message that segments make attaches the exception that the call carries, or else one from the
end of the segments, and shows the segments that are kept. -/
theorem ofSegments_cases (options : CompileOptions) (segments : List Segment) :
    ∃ kept error,
      ((kept = segments ∧ error = options.explicitError) ∨
        (options.explicitError = none ∧ ∃ expr, expr.operandKind = .throwable ∧
          segments = kept ++ [.argument expr] ∧ error = some expr)) ∧
      ofSegments options segments =
        { template := Segment.template (shown options.collapseAccessors error kept)
          arguments := Segment.arguments (shown options.collapseAccessors error kept)
          error } := by
  cases explicit : options.explicitError with
  | some error =>
    refine ⟨segments, some error, .inl ⟨rfl, rfl⟩, ?_⟩
    simp only [ofSegments, explicit, shown]
  | none =>
    refine ⟨(splitError segments).1, (splitError segments).2, ?_, ?_⟩
    · obtain ⟨expr, throwable, whole, taken⟩ | kept := splitError_cases segments
      · exact .inr ⟨rfl, expr, throwable, whole, taken⟩
      · rw [kept]
        exact .inl ⟨rfl, rfl⟩
    · simp only [ofSegments, explicit]
      rfl

/-! ## Any operand -/

/-- A literal operand is read as a template. Any other is read segment by segment, and nothing but an
exception can follow it. -/
theorem extract?_cases {collapse : Bool} {found : Extracted}
    (read : extract? style collapse operand trailing = some found) :
    (∃ raw, operand.bare.stringLiteral? = some raw ∧
      ofTemplate? style raw trailing = some found.message ∧ found.isCanonical = true) ∨
    (operand.operandKind ≠ .literal ∧ readable operand.segments = true ∧
      ∃ error, onlyError? trailing = some error ∧
        found.message = ofSegments { explicitError := error, collapseAccessors := collapse }
          operand.segments) := by
  unfold extract? at read
  split at read
  · obtain ⟨message, literal, rfl⟩ := Option.map_eq_some_iff.mp read
    obtain ⟨raw, isLiteral, template⟩ := Option.bind_eq_some_iff.mp literal
    exact .inl ⟨raw, isLiteral, template, rfl⟩
  · rename_i other
    simp only [Option.bind_eq_bind, Option.bind_eq_some_iff] at read
    obtain ⟨error, only, type, known, rest⟩ := read
    split at rest
    · rename_i readable
      cases rest
      exact .inr ⟨other, readable, error, only, rfl⟩
    · cases rest

/-- What is not spelled canonically is a concatenation, or an exception that is all there is of the
message. -/
theorem extract?_of_isCanonical_eq_false {collapse : Bool} {found : Extracted}
    (read : extract? style collapse operand trailing = some found)
    (rewritten : found.isCanonical = false) :
    operand.operandKind = .concatenation ∨
      operand.operandKind ≠ .literal ∧ operand.operandKind ≠ .concatenation ∧
        onlyError? trailing = some none ∧ found.message.error.isSome = true := by
  unfold extract? at read
  split at read
  · obtain ⟨message, literal, rfl⟩ := Option.map_eq_some_iff.mp read
    cases rewritten
  · rename_i other
    simp only [Option.bind_eq_bind, Option.bind_eq_some_iff] at read
    obtain ⟨error, only, type, known, rest⟩ := read
    split at rest
    · cases rest
      by_cases joins : operand.operandKind = .concatenation
      · exact .inl joins
      · simp only [Bool.and_eq_false_iff, bne_eq_false_iff_eq, joins, false_or, Bool.not_eq_false',
          Bool.and_eq_true, Option.isNone_iff_eq_none] at rewritten
        exact .inr ⟨other, joins, by rw [only, rewritten.1], rewritten.2⟩
    · cases rest

end Message

end LogCalls
