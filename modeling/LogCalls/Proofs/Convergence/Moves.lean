import LogCalls.Proofs.Convergence.Calls
import LogCalls.Proofs.Rule.Redirect

/-! # Calls that are written anew get lighter

Console writes, printed stack traces and calls of other frameworks move to the target framework, and
calls of frameworks with templates are written with a template. -/

namespace LogCalls

namespace Tariff

variable {event : LogEvent} {name : String} {replacement : Replacement} {arguments : List Expr}
  {select : Option Expr} {tariff : Tariff}

/-! ## Calls that move -/

/-- An exception is at most one concatenation. -/
theorem jointsList_error_le {error : Option Expr}
    (throwable : ∀ value, error = some value → value.isThrowable = true) :
    Expr.jointsList error.toList ≤ 1 := by
  cases error with
  | none => exact Nat.zero_le _
  | some value =>
    have := Expr.joints_le_one (Expr.isArray_eq_false (fun _ => rfl) (throwable value rfl))
    rw [Option.toList_some, Expr.jointsList, Expr.jointsList]
    omega

/-- The extras of a call that is written for the target without a marker are bounded. -/
theorem charge_written_le {severity : Severity} {method : ResolvedMethod}
    (written : event.Written tariff.target severity name arguments)
    (supported : tariff.target.supports severity = true) (unmarked : event.marker = none)
    (throwable : ∀ value, event.message.error = some value → value.isThrowable = true)
    (settled : tariff.isSettled name (some method) = true) :
    tariff.charge name arguments (some method) ≤ 25 := by
  have extras := written.charge_le supported tariff (some method)
  have message : tariff.messageCharge name arguments (some method) ≤ 24 := by
    by_cases style : tariff.target.templateStyle = .concatenation
    · rw [messageCharge, settled, style, if_pos]
      · exact Nat.zero_le _
      · simp
    · obtain ⟨text, member, isText⟩ | ⟨string, isString, -, joints⟩ := written.string_cases style
      · rw [messageCharge_of_isText isText member]
        exact Nat.zero_le _
      · have := jointsList_error_le throwable
        have := Expr.joints_le_one_of_isString isString
        have := tariff.messageCharge_le_joints name arguments (some method)
        rw [unmarked, Option.toList_none, Expr.jointsList] at joints
        omega
  omega

/-- A call that is written for the target weighs at most twice as much as its event. -/
theorem weight_emit_le (tariff : Tariff) (unmarked : event.marker = none)
    (throwable : ∀ value, event.message.error = some value → value.isThrowable = true)
    (policy : SeverityPolicy) (receiver : Expr) :
    tariff.weight (event.emit tariff.target policy receiver).expr ≤
      tariff.weight receiver + 2 * (total tariff.weight event.message.arguments +
        total tariff.weight event.message.error.toList) + 28 := by
  obtain ⟨name, arguments, same, written⟩ := event.written_emit tariff.target policy receiver
  have supported := policy.supports_resolve event.severity tariff.target
  obtain ⟨shape, found, -⟩ := written.find? supported
  have settled : tariff.isSettled name (some (.onInstance tariff.target.loggerType name)) = true :=
    isSettled_of_find? found
  have extras := charge_written_le written supported unmarked throwable settled
  have held := (written.total_le tariff.valuation_weight).1
  have := tariff.load_le arguments
  rw [unmarked, Option.toList_none, total_nil] at held
  rw [same, Expr.call, weight_methodCall, price, if_pos settled, Option.toList_some, total_cons,
    total_nil]
  omega

/-- A written call has no requests that its event does not have. -/
theorem hollowAccessors_emit_le (unmarked : event.marker = none)
    (target : Framework) (policy : SeverityPolicy) (receiver : Expr) :
    (event.emit target policy receiver).expr.hollowAccessors ≤
      receiver.hollowAccessors + (total Expr.hollowAccessors event.message.arguments +
        total Expr.hollowAccessors event.message.error.toList) := by
  obtain ⟨name, arguments, same, written⟩ := event.written_emit target policy receiver
  obtain ⟨shape, found, -⟩ := written.find? (policy.supports_resolve event.severity target)
  have held := (written.total_le Expr.valuation_hollowAccessors).1
  rw [unmarked, Option.toList_none, total_nil] at held
  rw [same, Expr.call, hollowAccessors_methodCall (Signature.not_mem_tellingNames found),
    Option.toList_some, total_cons, total_nil]
  omega

theorem form_emit (event : LogEvent) (target : Framework) (policy : SeverityPolicy)
    (receiver : Expr) :
    (event.emit target policy receiver).expr.form tariff.owner = .plain := by
  obtain ⟨name, arguments, same, written⟩ := event.written_emit target policy receiver
  obtain ⟨shape, found, -⟩ := written.find? (policy.supports_resolve event.severity target)
  rw [same, Expr.call, form_methodCall_eq_plain (Signature.not_mem_tellingNames found)]

/-- A call that is not one of the target framework is replaced by a lighter one that is written for an
event without a marker, if that and the receiver hold no more than the call. -/
theorem lightens_emit {method : Option ResolvedMethod} {policy : SeverityPolicy} {receiver : Expr}
    (other : name ∉ Expr.tellingNames) (unsettled : tariff.isSettled name method = false)
    (unmarked : event.marker = none)
    (throwable : ∀ value, event.message.error = some value → value.isThrowable = true)
    (held : ∀ value wrap, Valuation value wrap →
      value receiver + (total value event.message.arguments +
          total value event.message.error.toList) ≤
        total value select.toList + total value arguments) :
    tariff.Lightens 1 (.methodCall select name arguments method)
      (event.emit tariff.target policy receiver).expr where
  sound none := by
    have := held _ _ Expr.valuation_hollowAccessors
    have := hollowAccessors_emit_le unmarked tariff.target policy receiver
    rw [hollowAccessors_methodCall other] at none
    omega
  lighter _ := by
    have := held _ _ tariff.valuation_weight
    have := tariff.weight_emit_le unmarked throwable policy receiver
    have := le_weight_of_unsettled unsettled select arguments
    have := tariff.total_le_load arguments
    omega
  form := by rw [form_emit, form_methodCall_eq_plain other]

/-- A call that is recognised for another framework is not one of the target framework. -/
theorem isSettled_eq_false {method : ResolvedMethod}
    {signature : Signature} (resolved : resolveSignature? select name method = some signature)
    (other : signature.framework ≠ some tariff.target) :
    tariff.isSettled name (some method) = false := by
  cases settled : tariff.isSettled name (some method) with
  | false => rfl
  | true => exact absurd (framework_of_isSettled settled resolved) other

/-- A check that is not one of the target framework is replaced by a lighter one that is. -/
theorem lightens_emitCheck
    {method : Option ResolvedMethod} {severity : Severity} {policy : SeverityPolicy}
    {receiver : Expr} (other : name ∉ Expr.tellingNames)
    (unsettled : tariff.isSettled name method = false)
    (held : ∀ value wrap, Valuation value wrap → value receiver ≤ total value select.toList)
    (made : tariff.target.emitCheck? severity policy receiver = some replacement) :
    tariff.Lightens 1 (.methodCall select name arguments method) replacement.expr := by
  obtain ⟨newName, newArguments, expr, few, shape, found, notFactory, notLog⟩ :=
    Framework.emitCheck?_cases made
  -- All that the new call has as argument is a constant.
  have nothing {value : Expr → Nat} {wrap : Nat} (valuation : Valuation value wrap) :
      total value newArguments = 0 := by
    obtain ⟨rfl, -⟩ | ⟨levelType, constant, -, rfl, -⟩ := few
    · rfl
    · rw [total_cons, total_nil, Expr.constant, valuation.fieldAccess, valuation.typeRef]
  have joints : Expr.jointsList newArguments = 0 := by
    obtain ⟨rfl, -⟩ | ⟨levelType, constant, -, rfl, -⟩ := few <;> rfl
  rw [expr, Expr.call]
  refine lightens_call other (Signature.not_mem_tellingNames found) (fun clean => ?_) fun _ => ?_
  · have := held _ _ Expr.valuation_hollowAccessors
    have := nothing Expr.valuation_hollowAccessors
    rw [Option.toList_some, total_cons, total_nil]
    omega
  · refine tariff.price_lt_of_moves unsettled (isSettled_of_find? found) ?_
    have := held _ _ tariff.valuation_weight
    have := nothing tariff.valuation_weight
    have := tariff.load_le newArguments
    have extras : tariff.charge newName newArguments
        (some (.onInstanceReturning tariff.target.loggerType newName (.primitive .boolean))) ≤ 9 := by
      have key : newName ≠ "getLogger" ∧ newName ≠ "getLog" := by
        have named := fun named => notFactory ((Signature.find?_factory_iff found).mpr named)
        simpa using named
      have message : tariff.messageCharge newName newArguments
          (some (.onInstanceReturning tariff.target.loggerType newName (.primitive .boolean))) ≤ 8 := by
        have := tariff.messageCharge_le_joints newName newArguments
          (some (.onInstanceReturning tariff.target.loggerType newName (.primitive .boolean)))
        omega
      have level : levelCharge newName newArguments
          (some (.onInstanceReturning tariff.target.loggerType newName (.primitive .boolean))) = 0 := by
        simp [levelCharge, notLog]
      have := tariff.severityCharge_le newName
      rw [charge, level, keyCharge_eq_zero key]
      omega
    simp only [Option.toList_some, total_cons, total_nil]
    omega

/-- A use of a logger that is carried over to the target framework is lighter. -/
theorem lightens_migrate {settings : Migrate} (target : settings.target = tariff.target) {expr : Expr}
    {scope : Scope}
    (made : settings.replace? expr scope = some replacement) :
    tariff.Lightens 1 expr replacement.expr := by
  obtain ⟨use, field, planned, -, -, written⟩ := Migrate.replace?_cases made
  obtain ⟨-, framework, called, migrates, origin⟩ := Migrate.plan?_cases planned
  obtain ⟨receiver, retyped, -, emitted⟩ := Migrate.emit?_cases written
  have other : some framework ≠ some tariff.target := by
    rw [Migrate.migrates, target] at migrates
    simp only [Bool.and_eq_true, bne_iff_ne, ne_eq] at migrates
    simpa using migrates.1
  have same {value : Expr → Nat} {wrap : Nat} (valuation : Valuation value wrap) :
      value receiver = value use.receiver := by
    obtain ⟨name, old, before, after⟩ | ⟨target, name, old, before, after⟩ :=
      Expr.retyped?_cases retyped
    · rw [before, after, valuation.identifier, valuation.identifier]
    · rw [before, after, valuation.fieldAccess, valuation.fieldAccess]
  obtain ⟨call, rfl, recognized, logs, unmarked⟩ | ⟨check, rfl, -, recognized, rfl⟩ := origin
  · obtain ⟨name, level, operand, rest, found, shape, rfl, resolved, -, -, read, message, -⟩ :=
      LogCall.recognize?_logs recognized logs
    obtain ⟨call, ⟨⟩, written, -⟩ | ⟨check, made, impossible, -⟩ := emitted
    · obtain ⟨fqn, known⟩ := resolveSignature?_eq_some resolved
      rw [written, target]
      refine lightens_emit (Signature.not_mem_tellingNames known) (isSettled_eq_false resolved other)
        unmarked (fun value attached => ?_) fun value wrap valuation => ?_
      · rw [message] at attached
        exact Message.throwable_extract? read attached
      · have := (valuation.extract? read).1
        have same : value receiver = value call.receiver := same valuation
        rw [message, same, Option.toList_some, total_cons, total_nil, total_append, total_cons]
        omega
    · cases impossible
  · obtain ⟨name, arguments, method, rfl, shape⟩ := LevelCheck.recognize?_cases recognized
    obtain ⟨signature, resolved, framework⟩ : ∃ signature,
        resolveSignature? (some check.receiver) name method = some signature ∧
          signature.framework = some check.framework := by
      obtain ⟨resolved, -⟩ | ⟨resolved, -⟩ := shape <;> exact ⟨_, resolved, rfl⟩
    obtain ⟨call, impossible, -⟩ | ⟨check, made, ⟨⟩, emitted, written, -⟩ := emitted
    · cases impossible
    · obtain ⟨fqn, known⟩ := resolveSignature?_eq_some resolved
      rw [written]
      rw [target] at emitted
      refine lightens_emitCheck (Signature.not_mem_tellingNames known)
        (isSettled_eq_false resolved (framework ▸ other)) (fun value wrap valuation => ?_) emitted
      have same : value receiver = value check.receiver := same valuation
      rw [same, Option.toList_some, total_cons, total_nil]
      exact Nat.le_refl _

/-! ## Console writes and stack traces -/

section Redirected

variable {settings : Redirect} {scope : ClassScope}

/-- The loggers that are chosen hold nothing. -/
theorem value_receiver {value : Expr → Nat} {wrap : Nat} (valuation : Valuation value wrap)
    (choice : LoggerChoice) : value choice.receiver = 0 := by
  cases choice with
  | existing name framework => exact valuation.identifier _ _
  | injected request => exact valuation.identifier _ _

/-- A console write and a printed stack trace are calls of no framework, and hold all that their message
holds. -/
theorem prints_held (tariff : Tariff) {options : RecognizeOptions} {expr : Expr} {call : LogCall}
    (recognized : LogCall.recognize? options expr = some call)
    (prints : call.origin.framework? = none) :
    ∃ select name arguments method, expr = .methodCall select name arguments method ∧
      name ∉ Expr.tellingNames ∧ tariff.isSettled name method = false ∧ call.marker = none ∧
      (∀ value, call.message.error = some value → value.isThrowable = true) ∧
      ∀ value wrap, Valuation value wrap →
        total value call.message.arguments + total value call.message.error.toList ≤
          total value select.toList + total value arguments := by
  obtain ⟨receiver, name, arguments, method, signature, rfl, resolved, unmarked, shape⟩ :=
    LogCall.recognize?_prints recognized prints
  obtain ⟨fqn, found⟩ := resolveSignature?_eq_some resolved
  have outside : signature.framework ≠ some tariff.target := by
    intro framework
    obtain ⟨called, kind⟩ := signature
    cases framework
    obtain ⟨notTrace, notConsole⟩ := Signature.find?_framework_ne_print found
    obtain ⟨trace, -⟩ | ⟨console, -⟩ := shape
    · exact notTrace trace
    · exact notConsole console
  refine ⟨_, name, arguments, _, rfl, Signature.not_mem_tellingNames found,
    isSettled_eq_false resolved outside, unmarked, ?_⟩
  obtain ⟨-, -, rfl, throwable, message⟩ | ⟨-, stream, value, found, -, rfl, read, message⟩ := shape
  · rw [message]
    refine ⟨fun value attached => ?_, fun value wrap valuation => ?_⟩
    · cases attached
      exact throwable
    · simp
  · rw [message]
    refine ⟨fun value attached => Message.throwable_extract? read attached,
      fun value wrap valuation => ?_⟩
    have := (valuation.extract? read).1
    rw [total_nil] at this
    rw [total_cons, total_nil]
    omega

/-- What is printed is lighter when it is reported through a logger. -/
theorem lightens_prints (target : settings.target = tariff.target) {options : RecognizeOptions}
    {expr : Expr} {call : LogCall}
    (recognized : LogCall.recognize? options expr = some call)
    (prints : call.origin.framework? = none)
    (emitted : settings.emit? call.toLogEvent scope = some replacement) :
    tariff.Lightens 1 expr replacement.expr := by
  obtain ⟨select, name, arguments, method, rfl, other, unsettled, unmarked, throwable, held⟩ :=
    tariff.prints_held recognized prints
  obtain ⟨choice, -, written, -⟩ := Redirect.emit?_cases emitted
  rw [written, target]
  refine lightens_emit other unsettled unmarked throwable fun value wrap valuation => ?_
  rw [value_receiver valuation, Nat.zero_add]
  exact held value wrap valuation

/-- Two statements that are merged into one are lighter. -/
theorem lightensBlock_merged (target : settings.target = tariff.target) {first second : Statement}
    (merged : settings.mergedEvent? first second = some event)
    (emitted : settings.emit? event scope = some replacement) :
    tariff.LightensBlock 1 [first, second] [.expression replacement.expr] := by
  obtain ⟨print, trace, write, printed, error, rfl, rfl, recognized, console, recognizedTrace,
    stackTrace, attached, -, same⟩ := Redirect.mergedEvent?_cases merged
  obtain ⟨choice, -, written, -⟩ := Redirect.emit?_cases emitted
  obtain ⟨select, name, arguments, method, rfl, other, unsettled, unmarked, -, held⟩ :=
    tariff.prints_held recognized (by rw [console]; rfl)
  obtain ⟨inner, called, parts, resolved, rfl, otherTrace, unsettledTrace, -, throwable, heldTrace⟩ :=
    tariff.prints_held recognizedTrace (by rw [stackTrace]; rfl)
  have unmarked : event.marker = none := by rw [same, unmarked]
  have shown : event.message.arguments = write.message.arguments := by rw [same]
  have carried : event.message.error = printed.message.error := by rw [same, attached]
  rw [← carried] at throwable heldTrace
  rw [← shown] at held
  rw [written, target]
  refine ⟨fun clean => ?_, fun _ => ?_⟩
  · have := held _ _ Expr.valuation_hollowAccessors
    have := heldTrace _ _ Expr.valuation_hollowAccessors
    have := hollowAccessors_emit_le unmarked tariff.target settings.severityPolicy choice.receiver
    have := value_receiver Expr.valuation_hollowAccessors choice
    simp only [Statement.hollowAccessorsList, Statement.hollowAccessors,
      hollowAccessors_methodCall other, hollowAccessors_methodCall otherTrace] at clean ⊢
    omega
  · have := held _ _ tariff.valuation_weight
    have := heldTrace _ _ tariff.valuation_weight
    have := tariff.weight_emit_le unmarked throwable settings.severityPolicy choice.receiver
    have := value_receiver tariff.valuation_weight choice
    have := le_weight_of_unsettled unsettled select arguments
    have := le_weight_of_unsettled unsettledTrace inner parts
    have := tariff.total_le_load arguments
    have := tariff.total_le_load parts
    simp only [blockWeight, statementWeight]
    omega

/-- A block whose pairs are merged is lighter by the number of pairs. -/
theorem lightensBlock_mergePairs (target : settings.target = tariff.target) (scope : ClassScope)
    (block : List Statement) :
    ∃ pairs, (settings.mergePairs scope block).1.length + pairs = block.length ∧
      tariff.LightensBlock pairs block (settings.mergePairs scope block).1 := by
  fun_induction Redirect.mergePairs settings scope block with
  | case1 scope first second rest replacement found later statements effects visited
      ih =>
    rw [visited] at ih
    obtain ⟨event, merged, emitted⟩ := Option.bind_eq_some_iff.mp found
    obtain ⟨pairs, shorter, lightens⟩ := ih
    refine ⟨1 + pairs, ?_, (lightensBlock_merged target merged emitted).add lightens ?_ ?_ ?_ ?_⟩
    · simp only [List.length_cons] at shorter ⊢
      omega
    all_goals
      simp only [Statement.hollowAccessorsList, blockWeight]
      omega
  | case2 scope first second rest unmerged statements effects visited ih =>
    rw [visited] at ih
    obtain ⟨pairs, shorter, lightens⟩ := ih
    have kept : tariff.LightensBlock 0 [first] [first] := .refl [first]
    refine ⟨0 + pairs, ?_, kept.add lightens ?_ ?_ ?_ ?_⟩
    · simp only [List.length_cons] at shorter ⊢
      omega
    all_goals
      simp only [Statement.hollowAccessorsList, blockWeight]
      omega
  | case3 scope statements single => exact ⟨0, rfl, .refl statements⟩

/-- A block that is replaced for the pairs in it is lighter. -/
theorem lightensBlock_redirect (target : settings.target = tariff.target) {block : List Statement}
    {scope : Scope} {replacement : BlockReplacement}
    (made : settings.replaceBlock? block scope = some replacement) :
    tariff.LightensBlock 1 block replacement.statements := by
  obtain ⟨pairs, shorter, lightens⟩ := lightensBlock_mergePairs target scope.current block
  obtain ⟨changed, rfl⟩ := Redirect.replaceBlock?_cases made
  refine ⟨lightens.sound, fun admits => ?_⟩
  have := lightens.lighter admits
  dsimp only
  omega

end Redirected

end Tariff

end LogCalls
