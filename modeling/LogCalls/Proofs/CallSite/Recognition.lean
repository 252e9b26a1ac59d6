import LogCalls.CallSite.Log

/-! # How calls are recognised

What a recognised call looks like: where its message stands among the arguments, and how the record
of the call comes from it. -/

namespace LogCalls

variable {framework : Framework} {arguments : List Expr}

/-- The arguments are the marker, if there is one, and the rest. -/
theorem Framework.eq_append_of_splitMarker {rest : List Expr}
    {marker : Option Expr} (split : framework.splitMarker arguments = (marker, rest)) :
    arguments = marker.toList ++ rest := by
  cases arguments with
  | nil =>
    cases split
    rfl
  | cons first others =>
    rw [splitMarker] at split
    split at split
    · cases split
      rfl
    · cases split
      rfl

namespace LogCall

variable {call : LogCall} {options : RecognizeOptions} {expr receiver : Expr}
  {method : ResolvedMethod}

/-- A call of a framework's logging method has its message after an optional marker. -/
theorem ofFramework?_cases {severity : Severity} {hasLevelArgument : Bool}
    (recognized : ofFramework? options framework severity hasLevelArgument receiver arguments method =
      some call) :
    ∃ marker operand trailing found,
      framework.splitMarker arguments = (marker, operand :: trailing) ∧
      Message.extract? framework.templateStyle options.collapseAccessors operand trailing =
        some found ∧
      call = {
        severity, message := found.message, marker, receiver, origin := .framework framework
        isCanonical := found.isCanonical, method, hasLevelArgument } := by
  unfold ofFramework? at recognized
  simp only [Option.bind_eq_bind, Option.bind_eq_some_iff] at recognized
  obtain ⟨type, known, rest⟩ := recognized
  cases split : framework.splitMarker arguments with
  | mk marker others =>
    rw [split] at rest
    cases others with
    | nil => cases rest
    | cons operand trailing =>
      obtain ⟨found, read, record⟩ := Option.bind_eq_some_iff.mp rest
      cases record
      exact ⟨marker, operand, trailing, found, rfl, read, rfl⟩

/-- A printed stack trace has no arguments, and its message is a fixed text with the exception. -/
theorem ofStackTrace?_cases (recognized : ofStackTrace? receiver arguments method = some call) :
    arguments = [] ∧ receiver.isThrowable = true ∧
      call = {
        severity := .error, message := { template := "Exception", error := some receiver }
        receiver, origin := .stackTrace, isCanonical := false, method } := by
  unfold ofStackTrace? at recognized
  split at recognized
  · rename_i printed
    obtain ⟨empty, throwable⟩ : arguments = [] ∧ receiver.isThrowable = true := by
      simpa using printed
    cases recognized
    exact ⟨empty, throwable, rfl⟩
  · cases recognized

/-- A write to the console has one argument, which is its message. -/
theorem ofConsole?_cases (recognized : ofConsole? options receiver arguments method = some call) :
    ∃ stream value found, receiver.consoleStream? = some stream ∧ arguments = [value] ∧
      Message.extract? .anonymous options.collapseAccessors value [] = some found ∧
      call.message = found.message ∧ call.receiver = receiver ∧ call.origin = .console stream := by
  unfold ofConsole? at recognized
  simp only [Option.bind_eq_bind, Option.bind_eq_some_iff] at recognized
  obtain ⟨stream, names, rest⟩ := recognized
  split at rest
  · rename_i value
    split at rest
    · obtain ⟨found, read, record⟩ := Option.bind_eq_some_iff.mp rest
      cases record
      exact ⟨stream, value, found, names, rfl, read, rfl, rfl, rfl⟩
    · cases rest
  · cases rest

/-- A recognised call invokes a logging method of a framework, with the severity in its name or as its
first argument, or prints a stack trace, or writes to the console. -/
theorem recognize?_cases (recognized : recognize? options expr = some call) :
    ∃ receiver name arguments method,
      expr = .methodCall (some receiver) name arguments (some method) ∧
      ((∃ framework severity,
          resolveSignature? (some receiver) name method = some ⟨some framework, .leveled severity⟩ ∧
          ofFramework? options framework severity false receiver arguments method = some call) ∨
        (∃ framework severity level rest,
          resolveSignature? (some receiver) name method = some ⟨some framework, .levelArgument⟩ ∧
          arguments = level :: rest ∧ framework.levelSeverity? level = some severity ∧
          ofFramework? options framework severity true receiver rest method = some call) ∨
        ofStackTrace? receiver arguments method = some call ∨
        ofConsole? options receiver arguments method = some call) := by
  unfold recognize? at recognized
  split at recognized
  · rename_i receiver name arguments method
    refine ⟨receiver, name, arguments, method, rfl, ?_⟩
    obtain ⟨⟨framework, shape⟩, resolved, rest⟩ := Option.bind_eq_some_iff.mp recognized
    cases shape with
    | leveled severity =>
      obtain ⟨called, rfl, found⟩ := Option.bind_eq_some_iff.mp rest
      exact .inl ⟨called, severity, resolved, found⟩
    | levelArgument =>
      obtain ⟨called, rfl, found⟩ := Option.bind_eq_some_iff.mp rest
      cases arguments with
      | nil => cases found
      | cons level others =>
        obtain ⟨severity, known, found⟩ := Option.bind_eq_some_iff.mp found
        exact .inr (.inl ⟨called, severity, level, others, resolved, rfl, known, found⟩)
    | stackTrace => exact .inr (.inr (.inl rest))
    | console => exact .inr (.inr (.inr rest))
    | factory => cases rest
    | enabledCheck severity => cases rest
    | levelCheck => cases rest
  · cases recognized

/-- A call of a framework's logging method has the level first, if its method takes one, then the marker,
if there is one, then the message and what follows it. -/
theorem recognize?_logs (recognized : recognize? options expr = some call)
    (logs : call.origin = .framework framework) :
    ∃ name level operand rest found shape,
      expr = .methodCall (some call.receiver) name
        (level ++ call.marker.toList ++ operand :: rest) (some call.method) ∧
      resolveSignature? (some call.receiver) name call.method = some ⟨some framework, shape⟩ ∧
      ((shape = .leveled call.severity ∧ level = [] ∧ call.hasLevelArgument = false) ∨
        (shape = .levelArgument ∧ call.hasLevelArgument = true ∧
          ∃ argument, level = [argument] ∧
            framework.levelSeverity? argument = some call.severity)) ∧
      framework.splitMarker (call.marker.toList ++ operand :: rest) =
        (call.marker, operand :: rest) ∧
      Message.extract? framework.templateStyle options.collapseAccessors operand rest = some found ∧
      call.message = found.message ∧ call.isCanonical = found.isCanonical := by
  obtain ⟨receiver, name, arguments, method, rfl, origin⟩ := recognize?_cases recognized
  obtain ⟨called, severity, resolved, made⟩ |
    ⟨called, severity, level, others, resolved, rfl, known, made⟩ | made | made := origin
  · obtain ⟨marker, operand, rest, found, split, read, rfl⟩ := ofFramework?_cases made
    cases logs
    have whole := Framework.eq_append_of_splitMarker split
    subst whole
    exact ⟨name, [], operand, rest, found, _, rfl, resolved, .inl ⟨rfl, rfl, rfl⟩, split, read, rfl,
      rfl⟩
  · obtain ⟨marker, operand, rest, found, split, read, rfl⟩ := ofFramework?_cases made
    cases logs
    have whole := Framework.eq_append_of_splitMarker split
    subst whole
    exact ⟨name, [level], operand, rest, found, _, rfl, resolved,
      .inr ⟨rfl, rfl, level, rfl, known⟩, split, read, rfl, rfl⟩
  · obtain ⟨-, -, rfl⟩ := ofStackTrace?_cases made
    cases logs
  · obtain ⟨stream, value, found, -, -, -, -, -, console⟩ := ofConsole?_cases made
    rw [console] at logs
    cases logs

/-- In a call of a framework's logging method the message follows the level, if the method takes one,
and the marker, if there is one. -/
theorem recognize?_framework (recognized : recognize? options expr = some call)
    (logs : call.origin = .framework framework) :
    ∃ name level operand rest found,
      expr = .methodCall (some call.receiver) name
        (level ++ call.marker.toList ++ operand :: rest) (some call.method) ∧
      level.length = (if call.hasLevelArgument then 1 else 0) ∧
      Message.extract? framework.templateStyle options.collapseAccessors operand rest = some found ∧
      call.message = found.message := by
  obtain ⟨name, level, operand, rest, found, shape, whole, -, place, -, read, same, -⟩ :=
    recognize?_logs recognized logs
  refine ⟨name, level, operand, rest, found, whole, ?_, read, same⟩
  obtain ⟨-, rfl, unleveled⟩ | ⟨-, leveled, argument, rfl, -⟩ := place
  · rw [unleveled]
    rfl
  · rw [leveled]
    rfl

/-- A call that is recognised without a framework prints the stack trace of its receiver, or writes its
one argument to the console. -/
theorem recognize?_prints
    (recognized : recognize? options expr = some call) (prints : call.origin.framework? = none) :
    ∃ receiver name arguments method signature,
      expr = .methodCall (some receiver) name arguments (some method) ∧
      resolveSignature? (some receiver) name method = some signature ∧ call.marker = none ∧
      ((signature.shape = .stackTrace ∧ call.origin = .stackTrace ∧ arguments = [] ∧
          receiver.isThrowable = true ∧
          call.message = { template := "Exception", error := some receiver }) ∨
        (signature.shape = .console ∧ ∃ stream value found, call.origin = .console stream ∧
          arguments = [value] ∧
          Message.extract? .anonymous options.collapseAccessors value [] = some found ∧
          call.message = found.message)) := by
  unfold recognize? at recognized
  split at recognized
  · rename_i receiver name arguments method
    obtain ⟨⟨framework, shape⟩, resolved, rest⟩ := Option.bind_eq_some_iff.mp recognized
    refine ⟨receiver, name, arguments, method, _, rfl, resolved, ?_⟩
    cases shape with
    | leveled severity =>
      obtain ⟨called, rfl, made⟩ := Option.bind_eq_some_iff.mp rest
      obtain ⟨marker, operand, trailing, found, -, -, rfl⟩ := ofFramework?_cases made
      cases prints
    | levelArgument =>
      obtain ⟨called, rfl, made⟩ := Option.bind_eq_some_iff.mp rest
      cases arguments with
      | nil => cases made
      | cons level others =>
        obtain ⟨severity, known, made⟩ := Option.bind_eq_some_iff.mp made
        obtain ⟨marker, operand, trailing, found, -, -, rfl⟩ := ofFramework?_cases made
        cases prints
    | stackTrace =>
      obtain ⟨empty, throwable, rfl⟩ := ofStackTrace?_cases rest
      exact ⟨rfl, .inl ⟨rfl, rfl, empty, throwable, rfl⟩⟩
    | console =>
      have unmarked : call.marker = none := by
        simp only [ofConsole?, Option.bind_eq_bind, Option.bind_eq_some_iff] at rest
        obtain ⟨stream, -, rest⟩ := rest
        split at rest
        · split at rest
          · obtain ⟨found, -, record⟩ := Option.bind_eq_some_iff.mp rest
            cases record
            rfl
          · cases rest
        · cases rest
      obtain ⟨stream, value, found, -, single, read, message, -, origin⟩ := ofConsole?_cases rest
      exact ⟨unmarked, .inr ⟨rfl, stream, value, found, origin, single, read, message⟩⟩
    | factory => cases rest
    | enabledCheck severity => cases rest
    | levelCheck => cases rest
  · cases recognized

end LogCall

end LogCalls
