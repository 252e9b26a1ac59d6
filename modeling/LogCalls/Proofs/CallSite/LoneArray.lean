import LogCalls.Proofs.Message.Formatted
import LogCalls.Proofs.Rule.LoneException

/-! # Lone arrays

An array that is the only argument after a template is spread over the parameters of the call when it
runs, unless it is wrapped in an array of its own. This module says which arguments are read in either
case. In a `{}` template the wrapping array is read as the argument and the array itself as if it were
not spread. In an indexed pattern both calls are read as having the array for their argument. -/

namespace LogCalls

variable {raw : String}

/-! ## One argument -/

/-- The template prints one argument. -/
def TemplateStyle.HasOnePlaceholder (style : TemplateStyle) (raw : String) : Prop :=
  match style with
  | .anonymous => Template.placeholderCount raw = 1
  | .indexed => Indexed.Closed 1 false raw.toList ∧ Indexed.references (Indexed.reading raw) = [0]
  | .concatenation => False

/-- The texts around the references of an indexed pattern can be represented. -/
def TemplateStyle.Carries (style : TemplateStyle) (raw : String) : Prop :=
  style = .indexed → ∀ text ∈ Indexed.itemTexts (Indexed.reading raw),
    Template.isRepresentable (String.ofList text) = true

/-- A `{}` template with one placeholder takes the argument as it is, unless it is an exception. -/
theorem Message.ofTemplate?_sole (placeholder : Template.placeholderCount raw = 1)
    {only : Expr} (value : only.isThrowable = false) :
    ofTemplate? .anonymous raw [only] = some { template := raw, arguments := [only] } := by
  simp [ofTemplate?, onlyError?, ofArguments?, value, placeholder]

namespace Indexed

/-- A pattern with one reference has the parameter for its argument, if its texts can be represented. -/
theorem message?_sole (placeholder : TemplateStyle.indexed.HasOnePlaceholder raw) (only : Expr) :
    (∃ message, message? raw [only] = some message ∧ message.arguments = [only]) ↔
      TemplateStyle.indexed.Carries raw := by
  obtain ⟨closed, referred⟩ := placeholder
  constructor
  · rintro ⟨message, read, -⟩ -
    exact (exists_message?_iff.mp ⟨message, read⟩).representable
  · intro carries
    have convertible : Convertible raw [only] := {
      closed
      all := by simp [referred]
      ordered := .inl (by rw [referred]; rfl)
      representable := carries rfl }
    obtain ⟨message, read⟩ := exists_message?_iff.mpr convertible
    obtain ⟨items, segments, readItems, made, -, -, -, rfl⟩ := message?_cases read
    obtain ⟨-, rfl⟩ := items?_eq_some_iff.mp ⟨readItems, lt_length_of_segments? made⟩
    exact ⟨_, read, arguments_of_inOrder made (by rw [referred]; rfl)⟩

end Indexed

/-! ## Calls -/

namespace LogCall

/-- The call passes the operand and what follows it to a logging method of the framework, after a level,
if the method takes one, and perhaps a marker. -/
inductive Passes (framework : Framework) (operand : Expr) (rest : List Expr) : Expr → Prop
  | leveled (receiver : Expr) (name : String) (method : ResolvedMethod) (severity : Severity)
      (marker : Option Expr) (known : receiver.staticType.isSome = true)
      (resolved : resolveSignature? (some receiver) name method =
        some ⟨some framework, .leveled severity⟩)
      (typed : ∀ value, marker = some value → framework.isMarker value = true) :
      Passes framework operand rest
        (.methodCall (some receiver) name (marker.toList ++ operand :: rest) (some method))
  | levelArgument (receiver : Expr) (name : String) (method : ResolvedMethod) (severity : Severity)
      (level : Expr) (marker : Option Expr) (known : receiver.staticType.isSome = true)
      (resolved : resolveSignature? (some receiver) name method =
        some ⟨some framework, .levelArgument⟩)
      (leveled : framework.levelSeverity? level = some severity)
      (typed : ∀ value, marker = some value → framework.isMarker value = true) :
      Passes framework operand rest
        (.methodCall (some receiver) name (level :: (marker.toList ++ operand :: rest)) (some method))

/-- The call is recognised, and these are the arguments of its message. -/
def ReadsAs (options : RecognizeOptions) (expr : Expr) (arguments : List Expr) : Prop :=
  ∃ call, recognize? options expr = some call ∧ call.message.arguments = arguments

/-- The message of a call whose operand is a literal is read from its template. -/
theorem map_message_recognize? {framework : Framework} {operand expr : Expr} {rest : List Expr}
    (literal : operand.bare = .string raw) (passes : Passes framework operand rest expr)
    (options : RecognizeOptions) :
    (recognize? options expr).map (·.message) =
      Message.ofTemplate? framework.templateStyle raw rest := by
  have isLiteral := Expr.stringLiteral?_eq_some_iff.mpr literal
  have kind : operand.operandKind = .literal := Expr.operandKind_eq_literal_iff.mpr ⟨raw, isLiteral⟩
  -- A literal is no marker: what stands before it is split off as it was passed.
  have notMarker := Framework.isMarker_of_literal kind framework
  have read : Message.extract? framework.templateStyle options.collapseAccessors operand rest =
      (Message.ofTemplate? framework.templateStyle raw rest).map
        ({ message := ·, isCanonical := true }) := by
    rw [Message.extract?, if_pos kind, Message.ofLiteral?, isLiteral]
    rfl
  cases passes with
  | leveled receiver name method severity marker known resolved typed =>
    obtain ⟨type, found⟩ := Option.isSome_iff_exists.mp known
    rw [recognize?, resolved]
    simp only [Option.bind_eq_bind, Option.bind_some, ofFramework?, found,
      Framework.splitMarker_append typed notMarker, read, Option.pure_def]
    cases Message.ofTemplate? framework.templateStyle raw rest <;> rfl
  | levelArgument receiver name method severity level marker known resolved leveled typed =>
    obtain ⟨type, found⟩ := Option.isSome_iff_exists.mp known
    rw [recognize?, resolved]
    simp only [Option.bind_eq_bind, Option.bind_some, leveled, ofFramework?, found,
      Framework.splitMarker_append typed notMarker, read, Option.pure_def]
    cases Message.ofTemplate? framework.templateStyle raw rest <;> rfl

theorem readsAs_iff {framework : Framework} {operand expr : Expr} {rest arguments : List Expr}
    (literal : operand.bare = .string raw) (passes : Passes framework operand rest expr)
    (options : RecognizeOptions) :
    ReadsAs options expr arguments ↔
      ∃ message, Message.ofTemplate? framework.templateStyle raw rest = some message ∧
        message.arguments = arguments := by
  rw [← map_message_recognize? literal passes options]
  constructor
  · rintro ⟨call, recognized, same⟩
    exact ⟨call.message, by rw [recognized]; rfl, same⟩
  · rintro ⟨message, read, same⟩
    obtain ⟨call, recognized, rfl⟩ := Option.map_eq_some_iff.mp read
    exact ⟨call, recognized, same⟩

/-- **Lone arrays are read the wrong way round.** Take a template with one placeholder and an array that
is not written out. In a `{}` template, the call that wraps the array is read as having the wrapping
array for its argument, and the call that does not, whose elements are spread, as having the array. In an
indexed pattern, both are read as having the array, if its texts can be represented. -/
theorem readsAs_array_iff (options : RecognizeOptions) (framework : Framework)
    (operand array wrapped bare : Expr) (raw : String) (literal : operand.bare = .string raw)
    (placeholder : framework.templateStyle.HasOnePlaceholder raw) (typed : array.isArray = true)
    (computed : ∀ element elements, array ≠ .newArray element elements)
    (passesWrapped : Passes framework operand [.objectArray [array]] wrapped)
    (passesBare : Passes framework operand [array] bare) :
    (ReadsAs options wrapped [array] ↔
        framework.templateStyle = .indexed ∧ framework.templateStyle.Carries raw) ∧
      (framework.templateStyle = .anonymous → ReadsAs options wrapped [.objectArray [array]]) ∧
      (ReadsAs options bare [array] ↔ framework.templateStyle.Carries raw) := by
  have value := Expr.isThrowable_of_isArray typed
  rw [readsAs_iff literal passesWrapped, readsAs_iff literal passesWrapped,
    readsAs_iff literal passesBare]
  revert placeholder
  cases framework.templateStyle with
  | concatenation => exact False.elim
  | anonymous =>
    intro placeholder
    have wraps : (Expr.objectArray [array]).isThrowable = false := rfl
    rw [Message.ofTemplate?_sole placeholder wraps, Message.ofTemplate?_sole placeholder value]
    have carries : TemplateStyle.anonymous.Carries raw := by
      rintro ⟨⟩
    refine ⟨⟨?_, ?_⟩, fun _ => ⟨_, rfl, rfl⟩, fun _ => carries, fun _ => ⟨_, rfl, rfl⟩⟩
    · -- The wrapping array is written out, and the array is not.
      rintro ⟨message, ⟨⟩, same⟩
      exact absurd (List.head_eq_of_cons_eq same).symm (computed _ _)
    · rintro ⟨⟨⟩, -⟩
  | indexed =>
    intro placeholder
    have wraps : Indexed.Parameters [.objectArray [array]] [array] := .array _ _
    have single : Indexed.Parameters [array] [array] := .single array value computed
    rw [Message.ofTemplate?_of_parameters wraps, Message.ofTemplate?_of_parameters single,
      Indexed.message?_sole placeholder array]
    refine ⟨⟨fun carries => ⟨rfl, carries⟩, And.right⟩, ?_, Iff.rfl⟩
    rintro ⟨⟩

/-- An indexed pattern with an apostrophe, after a level: with and without a wrapping array, the
argument is the array. -/
theorem readsAs_array_iff_indexed :
    let logger := Expr.ident "logger" (.named "java.util.logging.Logger")
    let level := Expr.constant "java.util.logging.Level" "WARNING"
    let template := Expr.parens (.string "it''s \x7b0\x7d")
    let array := Expr.ident "a" (.array .string)
    let call (parameter : Expr) := Expr.call logger "log" [level, template, parameter]
      (.onInstance "java.util.logging.Logger" "log")
    ReadsAs {} (call (.objectArray [array])) [array] ∧ ReadsAs {} (call array) [array] := by
  intro logger level template array call
  have passes (parameter : Expr) : Passes .jul template [parameter] (call parameter) :=
    .levelArgument logger "log" (.onInstance "java.util.logging.Logger" "log") .warn level none rfl
      (by decide) (by decide) (by rintro value ⟨⟩)
  have items : Indexed.items? "it''s \x7b0\x7d" =
      some [.char 'i', .char 't', .char '\'', .char 's', .char ' ', .reference 0] := rfl
  -- The reading recurses on lengths and does not evaluate, but the reader does.
  obtain ⟨closed, read⟩ := Indexed.items?_eq_some_iff.mp ⟨items, (by decide : ∀ index ∈ [0], index < 1)⟩
  have carries : TemplateStyle.indexed.Carries "it''s \x7b0\x7d" := by
    rw [TemplateStyle.Carries, ← read]
    decide
  have computed (element : JavaType) (elements : List Expr) : array ≠ .newArray element elements :=
    Expr.noConfusion
  obtain ⟨wrapped, -, bare⟩ := readsAs_array_iff {} .jul template array _ _ "it''s \x7b0\x7d" rfl
    ⟨closed, by rw [← read]; rfl⟩ rfl computed (passes (.objectArray [array])) (passes array)
  exact ⟨wrapped.mpr ⟨rfl, carries⟩, bare.mpr carries⟩

/-- An array that is wrapped is not the argument that is read, and one whose elements are spread is. -/
theorem readsAs_wrapped : let logger := Expr.ident "logger" (.named "org.slf4j.Logger")
    let array := Expr.ident "a" (.array .string)
    let call (parameter : Expr) := Expr.call logger "info" [.string "\x7b\x7d", parameter]
      (.onInstance "org.slf4j.Logger" "info")
    ¬ ReadsAs {} (call (.objectArray [array])) [array] ∧
      ReadsAs {} (call (.objectArray [array])) [.objectArray [array]] ∧
      ReadsAs {} (call array) [array] := by
  intro logger array call
  refine ⟨?_, ⟨_, rfl, by decide⟩, ⟨_, rfl, by decide⟩⟩
  rintro ⟨found, recognized, same⟩
  have read : (recognize? {} (call (.objectArray [array]))).map (·.message.arguments) =
      some [.objectArray [array]] := by decide
  rw [recognized, Option.map_some, same] at read
  revert read
  decide

end LogCall

end LogCalls
