import LogCalls.Proofs.Emission.Distribution
import LogCalls.Proofs.Migration.Alike

/-! # What is carried over

A use of a logger that is carried over to another framework is written as a call on the same logger.
Its arguments are made of the arguments that were there, of texts and of level constants. -/

namespace LogCalls

/-! ## Uses of a logger -/

namespace CallShape

/-- A method of a logger that logs, or that checks whether something would be logged. -/
def isUse : CallShape → Bool
  | .leveled _ => true
  | .levelArgument => true
  | .enabledCheck _ => true
  | .levelCheck => true
  | _ => false

/-- A method that is given a level as its first argument. -/
def takesLevel : CallShape → Bool
  | .levelArgument => true
  | .levelCheck => true
  | _ => false

end CallShape

namespace Expr

/-- The expression is a call that logs, or a check. -/
def usesLogger (expr : Expr) : Bool := expr.signature?.any (·.shape.isUse)

/-- The level that a call is given: its first argument, if the method takes a level there. -/
def levelArguments : Expr → List Expr
  | .methodCall select name arguments method =>
    if (Expr.methodCall select name arguments method).signature?.any (·.shape.takesLevel) then
      arguments.take 1
    else []
  | _ => []

end Expr

/-- A check can be written for every framework. -/
theorem Framework.isSome_emitCheck? (target : Framework) (severity : Severity)
    (policy : SeverityPolicy) (receiver : Expr) :
    (target.emitCheck? severity policy receiver).isSome = true := by
  have supported := policy.supports_resolve severity target
  unfold emitCheck?
  dsimp only
  generalize policy.resolve severity target = severity at supported
  -- Severities that a framework lacks are ruled out.
  cases target <;> cases severity <;> cases supported <;> rfl

namespace Migrate

variable {use : LoggerUse} {settings : Migrate}

/-- A use of a logger and the call that is written for it. -/
structure CarriesOver (settings : Migrate) (select : Expr) (name : String) (arguments : List Expr)
    (method : ResolvedMethod) (receiver : Expr) (newName : String) (others : List Expr)
    (written : ResolvedMethod) : Prop where
  /-- A call that logs, or a check. -/
  uses : (Expr.methodCall (some select) name arguments (some method)).usesLogger = true
  /-- The logger is the same, with another type. -/
  retyped : select.retyped? settings.loggerType = some receiver
  /-- The method is one of the target's loggers. -/
  declaringType : written.declaringType = settings.target.loggerType
  /-- It is known there, is none that asks for a logger, and a level that it is given is a constant. -/
  resolves : ∃ shape, Signature.find? settings.target.loggerType newName =
      some ⟨some settings.target, shape⟩ ∧ shape ≠ .factory ∧
    (shape.takesLevel = true → ∀ level ∈ others.take 1, ∃ levelType constant,
      level = .constant levelType constant)
  /-- It returns nothing or a truth value. -/
  primitive : ∃ kind, written.returnType = some (.primitive kind)
  /-- What is true of all arguments and of level constants is true of the new arguments. -/
  holds {holds : Expr → Prop} : Expr.Distributes holds →
    (∀ levelType, settings.target.levelType? = some levelType →
      ∀ constant, holds (.constant levelType constant)) →
    (∀ expr ∈ arguments, holds expr) → ∀ expr ∈ others, holds expr
  /-- Nothing that is counted in arguments gets more. -/
  total_le {value : Expr → Nat} : Valuation value 0 → total value others ≤ total value arguments
  /-- Nothing that is counted in arguments gets lost, but with a level. -/
  le_total {value : Expr → Nat} : Valuation value 0 →
    Collapsible value settings.recognize.collapseAccessors →
    total value arguments ≤ total value others +
      total value (Expr.methodCall (some select) name arguments (some method)).levelArguments

/-- What is written for a call that logs is a call on the same logger. -/
theorem carriesOver_of_logs {expr receiver : Expr} {call : LogCall} {framework : Framework}
    (recognized : LogCall.recognize? settings.recognize expr = some call)
    (origin : call.origin = .framework framework) (unmarked : call.marker = none)
    (known : call.receiver.retyped? settings.loggerType = some receiver) :
    ∃ name arguments newName others written,
      expr = .methodCall (some call.receiver) name arguments (some call.method) ∧
      (call.toLogEvent.emit settings.target settings.severityPolicy receiver).expr =
        .methodCall (some receiver) newName others (some written) ∧
      settings.CarriesOver call.receiver name arguments call.method receiver newName others written := by
  obtain ⟨name, level, operand, rest, found, shape, whole, resolved, shapes, -, read, message, -⟩ :=
    LogCall.recognize?_logs recognized origin
  obtain ⟨newName, others, same, wrote⟩ := LogEvent.written_emit call.toLogEvent settings.target
    settings.severityPolicy receiver
  rw [unmarked, Option.toList_none, List.append_nil] at whole
  refine ⟨name, _, newName, others, _, whole, same, ?_⟩
  exact {
    uses := by
      rw [Expr.usesLogger, Expr.signature?]
      rw [resolved]
      obtain ⟨rfl, -⟩ | ⟨rfl, -⟩ := shapes <;> rfl
    retyped := known
    declaringType := rfl
    resolves := by
      have supported := settings.severityPolicy.supports_resolve call.severity settings.target
      cases wrote with
      | template => exact ⟨_, Signature.find?_methodFor supported, nofun, nofun⟩
      | joined => exact ⟨_, Signature.find?_methodFor supported, nofun, nofun⟩
      | whole => exact ⟨_, Signature.find?_methodFor supported, nofun, nofun⟩
      | attached style levelType constant =>
        exact ⟨_, Signature.find?_log style, nofun, fun _ =>
          List.forall_mem_singleton.mpr ⟨levelType, constant, rfl⟩⟩
      | indexed style levelType constant =>
        exact ⟨_, Signature.find?_log style, nofun, fun _ =>
          List.forall_mem_singleton.mpr ⟨levelType, constant, rfl⟩⟩
    primitive := ⟨.void, rfl⟩
    holds := by
      intro holds distributes level each
      obtain ⟨-, whole, trailing⟩ := List.forall_mem_append.mp each |>.imp_right
        List.forall_mem_cons.mp
      -- From the arguments to the message, and from the message to the new arguments.
      have each := distributes.extract? read whole trailing
      rw [← message] at each
      obtain ⟨each, error⟩ := List.forall_mem_append.mp each
      have marker : ∀ expr ∈ call.marker.toList, holds expr := by
        rw [unmarked]
        exact nofun
      exact distributes.written wrote marker each error level
    total_le := by
      intro value valuation
      have held := (wrote.total_le valuation).1
      have extracted := (valuation.extract? read).1
      rw [← message] at extracted
      rw [unmarked, Option.toList_none, total_nil] at held
      rw [total_append, total_cons]
      omega
    le_total := by
      intro value valuation collapsible
      have balanced : call.message.Balanced := message ▸ Message.balanced_extract? read
      have held := (wrote.total_le valuation).2 balanced
      have extracted := (valuation.extract? read).2 collapsible
      rw [← message] at extracted
      rw [total_append, total_cons]
      -- What stands before the message is the level, and the method takes one.
      obtain ⟨rfl, rfl, -⟩ | ⟨rfl, -, argument, rfl, -⟩ := shapes
      · rw [total_nil]
        omega
      · have leveled : (Expr.methodCall (some call.receiver) name ([argument] ++ operand :: rest)
            (some call.method)).levelArguments = [argument] := by
          rw [Expr.levelArguments, Expr.signature?, resolved]
          rfl
        rw [leveled]
        omega }

/-- What is written for a check is a call on the same logger. -/
theorem carriesOver_of_checks {expr receiver : Expr} {check : LevelCheck} {made : Replacement}
    (recognized : LevelCheck.recognize? expr = some check)
    (known : check.receiver.retyped? settings.loggerType = some receiver)
    (wrote : settings.target.emitCheck? check.severity settings.severityPolicy receiver = some made) :
    ∃ name arguments method newName others written,
      expr = .methodCall (some check.receiver) name arguments (some method) ∧
      made.expr = .methodCall (some receiver) newName others (some written) ∧
      settings.CarriesOver check.receiver name arguments method receiver newName others written := by
  obtain ⟨newName, others, written, few, resolves⟩ := Framework.emitCheck?_cases wrote
  obtain ⟨name, arguments, method, whole, shapes⟩ := LevelCheck.recognize?_cases recognized
  refine ⟨name, arguments, method, newName, others, _, whole, written, ?_⟩
  exact {
    uses := by
      rw [Expr.usesLogger, Expr.signature?]
      obtain ⟨resolved, -⟩ | ⟨resolved, -⟩ := shapes
      · exact resolved ▸ rfl
      · exact resolved ▸ rfl
    retyped := known
    declaringType := rfl
    resolves := by
      obtain ⟨shape, known, notFactory, -⟩ := resolves
      refine ⟨shape, known, notFactory, fun _ => ?_⟩
      obtain ⟨rfl, -⟩ | ⟨levelType, constant, -, rfl, -⟩ := few
      · exact List.forall_mem_nil _
      · exact List.forall_mem_singleton.mpr ⟨levelType, constant, rfl⟩
    primitive := ⟨.boolean, rfl⟩
    holds := by
      intro holds _ level _
      -- All that the new check has as argument is a level constant.
      obtain ⟨rfl, -⟩ | ⟨levelType, constant, leveled, rfl, -⟩ := few
      · exact nofun
      · exact List.forall_mem_singleton.mpr (level levelType leveled constant)
    total_le := by
      intro value valuation
      obtain ⟨rfl, -⟩ | ⟨levelType, constant, -, rfl, -⟩ := few
      · exact Nat.zero_le _
      · rw [total_cons, total_nil, Expr.constant, valuation.fieldAccess, valuation.typeRef]
        exact Nat.zero_le _
    le_total := by
      intro value _ _
      obtain ⟨-, rfl, -⟩ | ⟨resolved, level, rfl, -⟩ := shapes
      · exact Nat.zero_le _
      · have leveled : (Expr.methodCall (some check.receiver) name [level]
            (some method)).levelArguments = [level] := by
          rw [Expr.levelArguments, Expr.signature?, resolved]
          rfl
        rw [leveled]
        exact Nat.le_add_left _ _ }

/-- What is written for a use of a logger is a call on the same logger. -/
theorem carriesOver_of_emit? {expr : Expr} {replacement : Replacement}
    (planned : settings.plan? expr = some use) (emitted : settings.emit? use = some replacement) :
    ∃ name arguments method receiver newName others written,
      expr = .methodCall (some use.receiver) name arguments (some method) ∧
      replacement.expr = .methodCall (some receiver) newName others (some written) ∧
      settings.CarriesOver use.receiver name arguments method receiver newName others written := by
  obtain ⟨receiver, known, -, written⟩ := emit?_cases emitted
  obtain ⟨-, framework, -, -, ⟨call, rfl, recognized, origin, unmarked⟩ |
    ⟨check, rfl, -, recognized, -⟩⟩ := plan?_cases planned
  · obtain ⟨_, ⟨⟩, made, -⟩ | ⟨_, _, ⟨⟩, -⟩ := written
    obtain ⟨name, arguments, newName, others, written, whole, same, carries⟩ :=
      carriesOver_of_logs recognized origin unmarked known
    exact ⟨name, arguments, call.method, receiver, newName, others, written, whole, made.trans same,
      carries⟩
  · obtain ⟨_, ⟨⟩, -⟩ | ⟨_, made, ⟨⟩, wrote, same, -⟩ := written
    obtain ⟨name, arguments, method, newName, others, written, whole, new, carries⟩ :=
      carriesOver_of_checks recognized known wrote
    exact ⟨name, arguments, method, receiver, newName, others, written, whole, same.trans new, carries⟩

/-- A use of a logger is replaced by what is written for it, if the field of the logger has moved. -/
theorem carriesOver_of_replace? {expr : Expr} {scope : Scope} {replacement : Replacement}
    (replaced : settings.replace? expr scope = some replacement) :
    ∃ select name arguments method receiver newName others written field,
      expr = .methodCall (some select) name arguments (some method) ∧
      replacement.expr = .methodCall (some receiver) newName others (some written) ∧
      scope.fieldFor? select = some field ∧ field.type.typeName = settings.target.loggerType ∧
      settings.CarriesOver select name arguments method receiver newName others written := by
  obtain ⟨use, field, planned, found, moved, emitted⟩ := replace?_cases replaced
  obtain ⟨name, arguments, method, receiver, newName, others, written, same, made, carries⟩ :=
    carriesOver_of_emit? planned emitted
  exact ⟨use.receiver, name, arguments, method, receiver, newName, others, written, field, same, made,
    found, moved, carries⟩

/-- Every use can be written for the target if its logger is a name or a field. -/
theorem exists_emit? {receiver : Expr} {framework : Framework}
    (known : use.receiver.retyped? settings.loggerType = some receiver)
    (called : use.framework? = some framework) :
    ∃ replacement, settings.emit? use = some replacement := by
  rw [emit?, known, called]
  -- What is dropped from the imports does not decide whether there is an answer.
  cases use with
  | log call =>
    dsimp only [Option.bind_eq_bind, Option.bind_some]
    split
    · split <;> exact ⟨_, rfl⟩
    · exact ⟨_, rfl⟩
  | check found =>
    obtain ⟨made, written⟩ := Option.isSome_iff_exists.mp
      (settings.target.isSome_emitCheck? found.severity settings.severityPolicy receiver)
    dsimp only [Option.bind_eq_bind, Option.bind_some]
    rw [written, Option.bind_some]
    split
    · split <;> exact ⟨_, rfl⟩
    · exact ⟨_, rfl⟩

/-- The logger that is used is the receiver of the call, and it can have another type. -/
theorem plan?_receiver {select : Expr} {name : String} {arguments : List Expr}
    {method : Option ResolvedMethod}
    (planned : settings.plan? (.methodCall (some select) name arguments method) = some use) :
    use.receiver = select ∧ ∃ receiver, select.retyped? settings.loggerType = some receiver := by
  obtain ⟨retyped, framework, called, -, kind⟩ := plan?_cases planned
  have same : use.receiver = select := by
    obtain ⟨call, rfl, recognized, origin, -⟩ | ⟨check, rfl, -, recognized, -⟩ := kind
    · obtain ⟨_, _, _, _, _, _, whole, -⟩ := LogCall.recognize?_logs recognized origin
      cases whole
      rfl
    · obtain ⟨_, _, _, whole, -⟩ := LevelCheck.recognize?_cases recognized
      cases whole
      rfl
  exact ⟨same, same ▸ retyped⟩

/-- A use that can be carried over is replaced once the field of its logger has moved. -/
theorem exists_replace? {select : Expr} {name : String} {arguments : List Expr}
    {method : Option ResolvedMethod} {scope : Scope} {field : FieldDecl}
    (planned : (settings.plan? (.methodCall (some select) name arguments method)).isSome = true)
    (found : scope.fieldFor? select = some field)
    (moved : field.type.typeName = settings.target.loggerType) :
    ∃ replacement,
      settings.replace? (.methodCall (some select) name arguments method) scope = some replacement := by
  obtain ⟨use, planned⟩ := Option.isSome_iff_exists.mp planned
  obtain ⟨⟨receiver, known⟩, framework, called, -⟩ := plan?_cases planned
  obtain ⟨same, -⟩ := plan?_receiver planned
  obtain ⟨replacement, emitted⟩ := exists_emit? known called
  refine ⟨replacement, ?_⟩
  rw [replace?, planned]
  simp [same, found, moved, emitted]

end Migrate

end LogCalls
