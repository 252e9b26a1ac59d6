import LogCalls.Proofs.CallSite.Recognition
import LogCalls.Proofs.Emission.Effects
import LogCalls.Rule.Migrate

/-! # How loggers migrate

What can be carried over to another framework, and what is written for it. -/

namespace LogCalls

variable {expr : Expr} {replacement : Replacement}

/-- A check has no arguments if its method stands for a severity, and else a level. -/
theorem LevelCheck.recognize?_cases {check : LevelCheck}
    (recognized : recognize? expr = some check) :
    ∃ name arguments method,
      expr = .methodCall (some check.receiver) name arguments (some method) ∧
      ((resolveSignature? (some check.receiver) name method =
            some ⟨some check.framework, .enabledCheck check.severity⟩ ∧
          arguments = [] ∧ check.hasLevelArgument = false) ∨
        (resolveSignature? (some check.receiver) name method =
            some ⟨some check.framework, .levelCheck⟩ ∧
          ∃ level, arguments = [level] ∧
            check.framework.levelSeverity? level = some check.severity ∧
            check.hasLevelArgument = true)) := by
  unfold recognize? at recognized
  split at recognized
  · rename_i receiver name arguments method
    simp only [Option.bind_eq_bind, Option.bind_eq_some_iff] at recognized
    obtain ⟨type, -, ⟨called, shape⟩, resolved, framework, rfl, rest⟩ := recognized
    split at rest
    · rename_i severity isCheck
      cases isCheck
      cases rest
      exact ⟨name, [], method, rfl, .inl ⟨resolved, rfl, rfl⟩⟩
    · rename_i level isCheck
      cases isCheck
      obtain ⟨severity, known, made⟩ := Option.bind_eq_some_iff.mp rest
      cases made
      exact ⟨name, [level], method, rfl, .inr ⟨resolved, level, rfl, known, rfl⟩⟩
    · cases rest
  · cases recognized

namespace Expr

/-- Only names and fields have another type given to them, and nothing else changes. -/
theorem retyped?_cases {type : JavaType} {retyped : Expr} (made : expr.retyped? type = some retyped) :
    (∃ name old, expr = .identifier name old ∧ retyped = .identifier name (some type)) ∨
      ∃ target name old, expr = .fieldAccess target name old ∧
        retyped = .fieldAccess target name (some type) := by
  unfold retyped? at made
  split at made
  · cases made
    exact .inl ⟨_, _, rfl, rfl⟩
  · cases made
    exact .inr ⟨_, _, _, rfl, rfl⟩
  · cases made

end Expr

/-- A call that is written for an event asks for no field. -/
theorem LogEvent.field_emit (event : LogEvent) (target : Framework) (policy : SeverityPolicy)
    (receiver : Expr) : (event.emit target policy receiver).effects.field = none := by
  unfold emit
  split
  · rfl
  · rfl
  · unfold emitIndexed
    dsimp only
    split
    · rfl
    · split <;> rfl

/-- A check that is written for a framework is a recognised call with at most a level as argument, whose
class it asks for. -/
theorem Framework.emitCheck?_cases {target : Framework} {severity : Severity} {policy : SeverityPolicy}
    {receiver : Expr}
    (made : target.emitCheck? severity policy receiver = some replacement) :
    ∃ name arguments, replacement.expr = .call receiver name arguments
        (.onInstanceReturning target.loggerType name (.primitive .boolean)) ∧
      (arguments = [] ∧ replacement.effects = {} ∨
        ∃ levelType constant, target.levelType? = some levelType ∧
          arguments = [.constant levelType constant] ∧
          replacement.effects = ({} : Effects).importing levelType) ∧
      ∃ shape, Signature.find? target.loggerType name = some ⟨some target, shape⟩ ∧
        shape ≠ .factory ∧ name ≠ "log" := by
  unfold emitCheck? at made
  dsimp only at made
  generalize policy.resolve severity target = severity at made
  split at made
  · rename_i name known
    cases made
    refine ⟨name, [], rfl, .inl ⟨rfl, rfl⟩, .enabledCheck severity, ?_⟩
    unfold enabledMethod? at known
    split at known
    · rename_i own
      cases known
      revert own
      cases target <;> cases severity <;> decide
    · cases known
  · rename_i unknown
    simp only [Option.bind_eq_bind, Option.bind_eq_some_iff] at made
    obtain ⟨name, known, levelType, leveled, constant, -, made⟩ := made
    cases made
    refine ⟨name, [.constant levelType constant], rfl,
      .inr ⟨levelType, constant, leveled, rfl, rfl⟩, .levelCheck, ?_⟩
    cases target <;> cases known <;> decide

/-- A check asks for no field, either. -/
theorem Framework.field_emitCheck? {target : Framework} {severity : Severity}
    {policy : SeverityPolicy} {receiver : Expr}
    (made : target.emitCheck? severity policy receiver = some replacement) :
    replacement.effects.field = none := by
  obtain ⟨_, _, -, ⟨-, effects⟩ | ⟨_, _, -, -, effects⟩, -⟩ := emitCheck?_cases made
  · rw [effects]
  · rw [effects]
    rfl

namespace Migrate

variable {settings : Migrate}

/-- A use that can be carried over is a call of another framework without a marker, or a check, on a
logger that is a name or a field. -/
theorem plan?_cases {use : LoggerUse} (planned : settings.plan? expr = some use) :
    (∃ retyped, use.receiver.retyped? settings.loggerType = some retyped) ∧
    ∃ framework, use.framework? = some framework ∧ settings.migrates framework = true ∧
      ((∃ call, use = .log call ∧ LogCall.recognize? settings.recognize expr = some call ∧
          call.origin = .framework framework ∧ call.marker = none) ∨
        ∃ check, use = .check check ∧ LogCall.recognize? settings.recognize expr = none ∧
          LevelCheck.recognize? expr = some check ∧ check.framework = framework) := by
  unfold plan? at planned
  split at planned
  · rename_i call recognized
    obtain ⟨framework, called, rest⟩ := Option.bind_eq_some_iff.mp planned
    have origin : call.origin = .framework framework := by
      unfold LogOrigin.framework? at called
      split at called
      · rename_i same
        cases called
        exact same
      · cases called
    split at rest
    · rename_i moves
      obtain ⟨retyped, known, made⟩ := Option.bind_eq_some_iff.mp rest
      cases made
      obtain ⟨migrates, unmarked⟩ : settings.migrates framework = true ∧ call.marker = none := by
        simpa using moves
      exact ⟨⟨retyped, known⟩, framework, called, migrates,
        .inl ⟨call, rfl, recognized, origin, unmarked⟩⟩
    · cases rest
  · rename_i unrecognized
    obtain ⟨check, recognized, rest⟩ := Option.bind_eq_some_iff.mp planned
    split at rest
    · rename_i migrates
      obtain ⟨retyped, known, made⟩ := Option.bind_eq_some_iff.mp rest
      cases made
      exact ⟨⟨retyped, known⟩, check.framework, rfl, migrates,
        .inr ⟨check, rfl, unrecognized, recognized, rfl⟩⟩
    · cases rest

/-- A use is written for the target on the same logger, with the type of the target's loggers. It asks
for the imports of what is written, and for no field. -/
theorem emit?_cases {use : LoggerUse} (written : settings.emit? use = some replacement) :
    ∃ receiver, use.receiver.retyped? settings.loggerType = some receiver ∧
      replacement.effects.field = none ∧
      ((∃ call, use = .log call ∧ replacement.expr =
            (call.toLogEvent.emit settings.target settings.severityPolicy receiver).expr ∧
          replacement.effects.addImports = (call.toLogEvent.emit settings.target
            settings.severityPolicy receiver).effects.addImports) ∨
        ∃ check made, use = .check check ∧
          settings.target.emitCheck? check.severity settings.severityPolicy receiver = some made ∧
          replacement.expr = made.expr ∧
          replacement.effects.addImports = made.effects.addImports) := by
  unfold emit? at written
  obtain ⟨receiver, known, rest⟩ := Option.bind_eq_some_iff.mp written
  refine ⟨receiver, known, ?_⟩
  -- What is released with the level of a use changes nothing else.
  cases use with
  | log call =>
    obtain ⟨made, emitted, rest⟩ := Option.bind_eq_some_iff.mp rest
    cases emitted
    have noField := call.toLogEvent.field_emit settings.target settings.severityPolicy receiver
    obtain ⟨framework, -, rest⟩ := Option.bind_eq_some_iff.mp rest
    split at rest
    · split at rest <;> cases rest <;> exact ⟨noField, .inl ⟨call, rfl, rfl, rfl⟩⟩
    · cases rest
      exact ⟨noField, .inl ⟨call, rfl, rfl, rfl⟩⟩
  | check found =>
    obtain ⟨made, emitted, rest⟩ := Option.bind_eq_some_iff.mp rest
    have noField := Framework.field_emitCheck? emitted
    obtain ⟨framework, -, rest⟩ := Option.bind_eq_some_iff.mp rest
    split at rest
    · split at rest <;> cases rest <;> exact ⟨noField, .inr ⟨found, _, rfl, emitted, rfl, rfl⟩⟩
    · cases rest
      exact ⟨noField, .inr ⟨found, _, rfl, emitted, rfl, rfl⟩⟩

/-- A use is carried over if the field that it refers to has the type of the target's loggers. -/
theorem replace?_cases {scope : Scope}
    (replaced : settings.replace? expr scope = some replacement) :
    ∃ use field, settings.plan? expr = some use ∧ scope.fieldFor? use.receiver = some field ∧
      field.type.typeName = settings.target.loggerType ∧
      settings.emit? use = some replacement := by
  unfold replace? at replaced
  simp only [Option.bind_eq_bind, Option.bind_eq_some_iff] at replaced
  obtain ⟨use, planned, field, found, rest⟩ := replaced
  split at rest
  · rename_i moved
    exact ⟨use, field, planned, found, moved, rest⟩
  · cases rest

/-- A field moves if it is a logger of another framework that is initialized by a call for it, and if
all its uses can be carried over. It gets another type and another initializer, and asks for the imports
of the target's loggers and of their accessor. -/
theorem replaceField?_cases {field : FieldDecl} {declared : ClassDecl}
    {scope : Scope} {replacement : FieldReplacement}
    (replaced : settings.replaceField? field declared scope = some replacement) :
    ∃ framework initial factory,
      Framework.ofLoggerType? field.type.typeName = some framework ∧
      settings.migrates framework = true ∧ field.initializer = some initial ∧
      FactoryCall.recognize? initial = some factory ∧ factory.framework = framework ∧
      settings.usesMigrate { owner := declared.fqn, name := field.name } false declared = true ∧
      replacement.field = { field with
        type := settings.loggerType
        initializer := some (settings.target.factoryCall factory.key scope.current.fqn) } ∧
      replacement.effects.field = none ∧
      ∀ name, name ∈ replacement.effects.addImports ↔
        name = settings.target.factoryType ∨ name = settings.target.loggerType := by
  unfold replaceField? at replaced
  simp only [Option.bind_eq_bind, Option.bind_eq_some_iff] at replaced
  obtain ⟨framework, typed, rest⟩ := replaced
  split at rest
  · rename_i migrates
    simp only [Option.bind_eq_some_iff] at rest
    obtain ⟨initial, initialized, made, asked, rest⟩ := rest
    split at rest
    · rename_i uses
      cases rest
      unfold initializer? at asked
      obtain ⟨factory, recognized, asked⟩ := Option.bind_eq_some_iff.mp asked
      split at asked
      · rename_i same
        cases asked
        refine ⟨framework, initial, factory, typed, migrates, initialized, recognized, same, uses, rfl,
          rfl, fun name => Effects.mem_addImports_importing.trans (or_congr_left ?_)⟩
        rw [Replacement.withEffects, Effects.mem_addImports_merge, Framework.emitFactory,
          Effects.mem_addImports_importing]
        simp [Effects.releasing]
      · cases asked
    · cases rest
  · cases rest

end Migrate

end LogCalls
