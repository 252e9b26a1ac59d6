import LogCalls.Proofs.Emission.Distribution
import LogCalls.Proofs.Rule.Migrate
import LogCalls.Rule.Redirect

/-! # How console writes and stack traces are redirected

Which logger a redirected call uses, and what becomes of the statements of a block. -/

namespace LogCalls

variable {scope : ClassScope}

/-- A class uses the logger that it has, and is given one only if the name is free. -/
theorem ClassScope.chooseLogger?_cases {framework : Framework}
    {policy : LoggerPolicy} {choice : LoggerChoice}
    (chosen : scope.chooseLogger? framework policy = some choice) :
    (∃ name, scope.loggerName? framework = some name ∧ choice = .existing name framework) ∨
      (scope.loggerName? framework = none ∧ policy.addIfMissing = true ∧
        scope.hasFieldNamed policy.fieldName = false ∧
        choice = .injected {
          ownerType := scope.fqn, fieldName := policy.fieldName, framework }) := by
  unfold chooseLogger? at chosen
  split at chosen
  · rename_i name known
    cases chosen
    exact .inl ⟨name, known, rfl⟩
  · rename_i unknown
    split at chosen
    · rename_i adds
      cases chosen
      obtain ⟨missing, free⟩ : policy.addIfMissing = true ∧
          scope.hasFieldNamed policy.fieldName = false := by simpa using adds
      exact .inr ⟨unknown, missing, free, rfl⟩
    · cases chosen

namespace Redirect

variable {event : LogEvent} {replacement : Replacement} {expr : Expr} {settings : Redirect}

/-- The logger that a class is given. -/
def request (settings : Redirect) (owner : String) : FieldRequest where
  ownerType := owner
  fieldName := settings.loggerPolicy.fieldName
  framework := settings.target

/-- An event is reported through the logger that is chosen. The field that this needs is asked for, and
what the call and the field need to import. -/
theorem emit?_cases (emitted : settings.emit? event scope = some replacement) :
    ∃ choice, scope.chooseLogger? settings.target settings.loggerPolicy = some choice ∧
      replacement.expr =
        (event.emit settings.target settings.severityPolicy choice.receiver).expr ∧
      replacement.effects.field = choice.request? ∧
      ∀ name, name ∈ replacement.effects.addImports ↔
        name ∈ (event.emit settings.target settings.severityPolicy
          choice.receiver).effects.addImports ∨
        ∃ request, choice.request? = some request ∧ name ∈ request.imports := by
  unfold emit? at emitted
  obtain ⟨choice, chosen, rest⟩ := Option.bind_eq_some_iff.mp emitted
  refine ⟨choice, chosen, ?_⟩
  have bare := event.field_emit settings.target settings.severityPolicy choice.receiver
  dsimp only at rest
  split at rest
  · rename_i request asked
    cases rest
    refine ⟨rfl, by rw [asked]; rfl, fun name => ?_⟩
    rw [Replacement.withEffects, Effects.mem_addImports_merge, Effects.mem_addImports_requesting,
      asked]
    simp
  · rename_i asked
    cases rest
    refine ⟨rfl, by rw [bare, asked], fun name => ?_⟩
    simp [asked]

/-- The field that is asked for is the logger that the class is given. -/
theorem request_emit?
    (emitted : settings.emit? event scope = some replacement) {request : FieldRequest}
    (asked : replacement.effects.field = some request) : request = settings.request scope.fqn := by
  obtain ⟨choice, chosen, -, field, -⟩ := emit?_cases emitted
  rw [field] at asked
  obtain ⟨name, -, rfl⟩ | ⟨-, -, -, rfl⟩ := ClassScope.chooseLogger?_cases chosen
  · cases asked
  · cases asked
    rfl

/-- What is recognised as a console write comes from no framework. -/
theorem consoleWrite?_cases {write : LogCall} {stream : ConsoleStream}
    (found : settings.consoleWrite? expr = some (write, stream)) :
    LogCall.recognize? settings.recognize expr = some write ∧ write.origin = .console stream := by
  unfold consoleWrite? at found
  obtain ⟨call, recognized, rest⟩ := Option.bind_eq_some_iff.mp found
  split at rest
  · rename_i origin
    cases rest
    exact ⟨recognized, origin⟩
  · cases rest

theorem printedTrace?_cases {call : LogCall} (found : printedTrace? expr = some call) :
    LogCall.recognize? {} expr = some call ∧ call.origin = .stackTrace := by
  unfold printedTrace? at found
  obtain ⟨call, recognized, rest⟩ := Option.bind_eq_some_iff.mp found
  split at rest
  · rename_i origin
    cases rest
    exact ⟨recognized, origin⟩
  · cases rest

/-- A console write is reported through a logger. -/
theorem replaceConsole?_cases {scope : Scope}
    (replaced : settings.replaceConsole? expr scope = some replacement) :
    ∃ call, LogCall.recognize? settings.recognize expr = some call ∧
      call.origin.framework? = none ∧
      settings.emit? call.toLogEvent scope.current = some replacement := by
  unfold replaceConsole? at replaced
  obtain ⟨⟨write, stream⟩, found, emitted⟩ := Option.bind_eq_some_iff.mp replaced
  obtain ⟨recognized, origin⟩ := consoleWrite?_cases found
  exact ⟨write, recognized, by rw [origin]; rfl, emitted⟩

/-- A printed stack trace is reported through a logger. -/
theorem replaceTrace?_cases {scope : Scope}
    (replaced : settings.replaceTrace? expr scope = some replacement) :
    ∃ call, LogCall.recognize? {} expr = some call ∧ call.origin.framework? = none ∧
      settings.emit? call.toLogEvent scope.current = some replacement := by
  unfold replaceTrace? at replaced
  obtain ⟨call, found, emitted⟩ := Option.bind_eq_some_iff.mp replaced
  obtain ⟨recognized, origin⟩ := printedTrace?_cases found
  exact ⟨call, recognized, by rw [origin]; rfl, emitted⟩

/-- A block is replaced by what is merged of it, if that is shorter. -/
theorem replaceBlock?_cases {block : List Statement} {scope : Scope} {replacement : BlockReplacement}
    (replaced : settings.replaceBlock? block scope = some replacement) :
    (settings.mergePairs scope.current block).1.length ≠ block.length ∧
      replacement = {
        statements := (settings.mergePairs scope.current block).1
        effects := (settings.mergePairs scope.current block).2 } := by
  unfold replaceBlock? at replaced
  dsimp only at replaced
  split at replaced
  · cases replaced
  · rename_i changed
    cases replaced
    exact ⟨changed, rfl⟩

/-- A console write and the stack trace that is printed after it are one event, with the message of the
first and the exception of the second. The message has no exception of its own, or the same one. -/
theorem mergedEvent?_cases {first second : Statement}
    (merged : settings.mergedEvent? first second = some event) :
    ∃ print trace write printed error,
      first = .expression print ∧ second = .expression trace ∧
      LogCall.recognize? settings.recognize print = some write ∧
      write.origin = .console .err ∧
      LogCall.recognize? {} trace = some printed ∧ printed.origin = .stackTrace ∧
      printed.message.error = some error ∧
      (write.message.error = none ∨ write.message.error = some error) ∧
      event = { write.toLogEvent with message := { write.message with error := some error } } := by
  unfold mergedEvent? at merged
  split at merged
  · rename_i print trace
    obtain ⟨⟨write, stream⟩, written, rest⟩ := Option.bind_eq_some_iff.mp merged
    dsimp only at rest
    split at rest
    · rename_i isErr
      cases isErr
      simp only [Option.bind_eq_bind, Option.bind_eq_some_iff] at rest
      obtain ⟨printed, traced, error, attached, rest⟩ := rest
      obtain ⟨recognizedWrite, console⟩ := consoleWrite?_cases written
      obtain ⟨recognizedTrace, stackTrace⟩ := printedTrace?_cases traced
      refine ⟨print, trace, write, printed, error, rfl, rfl, recognizedWrite, console, recognizedTrace,
        stackTrace, attached, ?_⟩
      split at rest
      · rename_i bare
        cases rest
        exact ⟨.inl bare, rfl⟩
      · rename_i existing carried
        split at rest
        · rename_i same
          cases rest
          rw [← same, ← carried]
          exact ⟨.inr rfl, rfl⟩
        · cases rest
    · cases rest
  · cases merged

/-- The merged calls of a block ask for no other field. -/
theorem request_mergePairs (scope : ClassScope) (block : List Statement) {request : FieldRequest}
    (asked : (settings.mergePairs scope block).2.field = some request) :
    request = settings.request scope.fqn := by
  fun_induction mergePairs settings scope block with
  | case1 scope first second rest replacement found later statements effects visited
      ih =>
    obtain ⟨event, -, emitted⟩ := Option.bind_eq_some_iff.mp found
    rw [visited] at ih
    have same : later.fqn = scope.fqn := by
      simp only [later]
      split <;> rfl
    rw [same] at ih
    obtain fromRest | ⟨-, fromFirst⟩ := Option.or_eq_some_iff.mp asked
    · exact ih fromRest
    · exact request_emit? emitted fromFirst
  | case2 scope first second rest unmerged statements effects visited ih =>
    rw [visited] at ih
    exact ih asked
  | case3 => cases asked

/-- In the call that reports an event, blocks are nested no deeper than in the parts of the event. -/
theorem blockDepth_emit? (emitted : settings.emit? event scope = some replacement) {limit : Nat}
    (parts : event.Consists (·.blockDepth ≤ limit)) : replacement.expr.blockDepth ≤ limit := by
  obtain ⟨choice, -, same, -⟩ := emit?_cases emitted
  obtain ⟨name, arguments, written, wrote⟩ :=
    event.written_emit settings.target settings.severityPolicy choice.receiver
  have receiver : choice.receiver.blockDepth ≤ limit := by
    cases choice <;> exact Nat.zero_le limit
  have each := (Expr.distributes_blockDepth limit).written wrote parts.marker parts.arguments
    parts.error fun _ _ _ => Nat.zero_le limit
  rw [same, written]
  exact Nat.max_le.mpr ⟨receiver, Expr.blockDepthList_le_iff.mpr each⟩

/-- In the event that two statements are merged into, blocks are nested no deeper than in them. -/
theorem blockDepth_mergedEvent? {first second : Statement}
    (merged : settings.mergedEvent? first second = some event) :
    event.Consists (·.blockDepth ≤ max first.blockDepth second.blockDepth) := by
  obtain ⟨print, trace, write, printed, error, rfl, rfl, recognized, -, traced, -, carried, -, rfl⟩ :=
    mergedEvent?_cases merged
  have parts {options : RecognizeOptions} {expr : Expr} {call : LogCall}
      (recognized : LogCall.recognize? options expr = some call) :
      call.toLogEvent.Consists (·.blockDepth ≤ expr.blockDepth) := by
    obtain ⟨receiver, name, arguments, method, rfl, -⟩ := LogCall.recognize?_cases recognized
    rw [Expr.blockDepth]
    refine (Expr.distributes_blockDepth _).recognize? recognized ?_
      (Expr.blockDepthList_le_iff.mp (Nat.le_max_right _ _))
    rintro _ ⟨⟩
    exact Nat.le_max_left _ _
  have onError := (parts traced).error
  rw [carried] at onError
  rw [Statement.blockDepth, Statement.blockDepth]
  exact ⟨fun expr member => Nat.le_trans ((parts recognized).marker expr member) (Nat.le_max_left _ _),
    fun expr member => Nat.le_trans ((parts recognized).arguments expr member) (Nat.le_max_left _ _),
    fun expr member => Nat.le_trans (onError expr member) (Nat.le_max_right _ _)⟩

/-- A block whose pairs are merged has no deeper nested blocks than before. -/
theorem blockDepthList_mergePairs (scope : ClassScope) (block : List Statement) :
    Statement.blockDepthList (settings.mergePairs scope block).1 ≤ Statement.blockDepthList block := by
  fun_induction mergePairs settings scope block with
  | case1 scope first second rest replacement found later statements effects visited ih =>
    obtain ⟨event, merged, emitted⟩ := Option.bind_eq_some_iff.mp found
    have call := blockDepth_emit? emitted (blockDepth_mergedEvent? merged)
    rw [visited] at ih
    simp only [Statement.blockDepthList, Statement.blockDepth] at ih ⊢
    omega
  | case2 scope first second rest unmerged statements effects visited ih =>
    rw [visited] at ih
    simp only [Statement.blockDepthList] at ih ⊢
    omega
  | case3 => exact Nat.le_refl _

end Redirect

end LogCalls
