import LogCalls.Proofs.CallSite.Signatures
import LogCalls.Proofs.Rule.ConstantMessage
import LogCalls.Rule.ChangeLevel
import LogCalls.Rule.CompleteException
import LogCalls.Rule.LevelMethod
import LogCalls.Rule.LoggerDeclaration

/-! # How calls and fields are changed where they stand

What the rules for exceptions, for levels and for the names of loggers make of a call, and the rule for
private loggers of a field. -/

namespace LogCalls

variable {expr : Expr} {replacement : Replacement}

namespace CompleteException

/-- The exception is passed after the request for its message, or in its place. -/
theorem complete?_cases {arguments completed : List Expr}
    (made : complete? arguments = some completed) :
    ∃ last error, last.accessedError? = some error ∧
      ((arguments = [last] ∧ completed = [.string "", error]) ∨
        ∃ template middle, arguments = .string template :: middle ++ [last] ∧
          (completed = .string template :: middle ++ [last, error] ∨
            completed = .string template :: middle ++ [error])) := by
  unfold complete? at made
  simp only [Option.bind_eq_bind, Option.bind_eq_some_iff] at made
  obtain ⟨last, found, error, asks, rest⟩ := made
  refine ⟨last, error, asks, ?_⟩
  split at rest
  · cases found
    cases rest
    exact .inl ⟨rfl, rfl⟩
  · rename_i first others more
    obtain ⟨template, literal, rest⟩ := Option.bind_eq_some_iff.mp rest
    cases Expr.stringLiteral?_eq_some_iff.mp literal
    obtain ⟨middle, rfl⟩ : ∃ middle, others = middle ++ [last] := by
      cases others with
      | nil => exact (more rfl).elim
      | cons second others =>
        rw [List.getLast?_cons_cons] at found
        exact List.getLast?_eq_some_iff.mp found
    refine .inr ⟨template, middle, rfl, ?_⟩
    split at rest
    · cases rest
      exact .inl (by simp)
    · cases rest
      refine .inr ?_
      rw [← List.cons_append, List.dropLast_concat]
  · cases found

/-- The exception is passed in a call that logs with a severity of its own, after the marker. -/
theorem replace?_cases (made : replace? expr = some replacement) :
    ∃ select name arguments method framework severity marker rest completed,
      expr = .methodCall select name arguments (some method) ∧
      resolveSignature? select name method = some ⟨some framework, .leveled severity⟩ ∧
      framework.templateStyle = .anonymous ∧ framework.splitMarker arguments = (marker, rest) ∧
      complete? rest = some completed ∧
      replacement =
        { expr := .methodCall select name (marker.toList ++ completed) (some method) } := by
  unfold replace? at made
  obtain ⟨framework, found, rest⟩ := Option.bind_eq_some_iff.mp made
  obtain ⟨select, name, arguments, method, severity, rfl, resolved, style⟩ :=
    ConstantMessage.ofLeveledTemplateCall?_eq_some found
  dsimp only at rest
  cases split : framework.splitMarker arguments with
  | mk marker others =>
    rw [split] at rest
    obtain ⟨completed, complete, same⟩ := Option.bind_eq_some_iff.mp rest
    cases same
    exact ⟨select, name, arguments, method, framework, severity, marker, others, completed, rfl,
      resolved, style, split, complete, rfl⟩

end CompleteException

namespace ChangeLevel

/-- A call gets the name of the method for the other severity, on the same logger and with the same
arguments. -/
theorem replace?_cases {settings : ChangeLevel} (made : settings.replace? expr = some replacement) :
    ∃ select arguments method framework,
      expr = .methodCall select (framework.methodFor settings.source) arguments (some method) ∧
      resolveSignature? select (framework.methodFor settings.source) method =
        some ⟨some framework, .leveled settings.source⟩ ∧
      framework.supports settings.target = true ∧
      replacement = {
        expr := .methodCall select (framework.methodFor settings.target) arguments
          (some { method with name := framework.methodFor settings.target }) } := by
  unfold replace? at made
  simp only [Option.bind_eq_bind, Option.bind_eq_some_iff] at made
  obtain ⟨⟨called, shape⟩, resolved, framework, same, rest⟩ := made
  cases same
  unfold Expr.signature? at resolved
  split at resolved
  · rename_i select name arguments method
    dsimp only at rest
    split at rest
    · rename_i severity leveled whole
      cases whole
      split at rest
      · cases rest
      · rename_i accepted
        obtain ⟨operand, -, rest⟩ := Option.bind_eq_some_iff.mp rest
        split at rest
        · cases rest
          simp only [ne_eq, Bool.or_eq_true, decide_eq_true_eq, Bool.not_eq_true', not_or,
            Decidable.not_not, Bool.not_eq_false] at accepted
          obtain ⟨⟨rfl, rfl⟩, supported⟩ := accepted
          exact ⟨select, arguments, method, framework, rfl, resolved, supported, rfl⟩
        · cases rest
    · cases rest
  · cases resolved

end ChangeLevel

/-- The level becomes the name of the method, the message is all that is left of the arguments, and a
class that levels come from need no longer be imported. -/
theorem LevelMethod.replace?_cases (made : replace? expr = some replacement) :
    ∃ select name level operand resolved method levelType,
      expr = .methodCall select name [level, operand] (some resolved) ∧
      method? level = some method ∧
      replacement = {
        expr := .methodCall select method [operand] (some { resolved with name := method })
        effects := ({} : Effects).releasing levelType } := by
  unfold replace? at made
  split at made
  · rename_i select name level operand resolved
    obtain ⟨method, found, rest⟩ := Option.bind_eq_some_iff.mp made
    split at rest
    · obtain ⟨levelType, -, rest⟩ := Option.bind_eq_some_iff.mp rest
      cases rest
      exact ⟨select, name, level, operand, resolved, method, levelType, rfl, found, rfl⟩
    · cases rest
  · cases made

/-- A call that asks for the logger of another class asks for that of the class around it. -/
theorem EnclosingClass.replace?_cases {scope : Scope} (made : replace? expr scope = some replacement) :
    ∃ (factory : FactoryCall) (select : Option Expr) (name : String) (argument : Expr),
      expr = .methodCall select name [argument] (some factory.method) ∧
      resolveSignature? select name factory.method = some ⟨some factory.framework, .factory⟩ ∧
      LoggerKey.ofExpr? argument = some factory.key ∧
      isStale scope.current.fqn factory.key = true ∧
      replacement = {
        expr := .methodCall select name [newKey scope.current.fqn factory.key (some argument)]
          (some factory.method) } := by
  unfold replace? at made
  obtain ⟨factory, recognized, rest⟩ := Option.bind_eq_some_iff.mp made
  obtain ⟨select, name, arguments, rfl, resolved, keyed⟩ := FactoryCall.recognize?_cases recognized
  dsimp only at rest
  split at rest
  · rename_i stale
    cases rest
    -- Without an argument the calling class is meant, and more than one argument is no key.
    obtain ⟨argument, rfl⟩ : ∃ argument, arguments = [argument] := by
      unfold LoggerKey.ofArguments? at keyed
      split at keyed
      · rw [← Option.some.inj keyed] at stale
        cases stale
      · exact ⟨_, rfl⟩
      · cases keyed
    exact ⟨factory, select, name, argument, rfl, resolved, keyed, stale, rfl⟩
  · cases rest

/-- A field that other classes see is declared private, and stays as it is else. -/
theorem PrivateLogger.replaceField?_cases {field : FieldDecl} {declared : ClassDecl}
    {replacement : FieldReplacement} (made : replaceField? field declared = some replacement) :
    field.modifiers.visibility ≠ .privateAccess ∧ replacement = {
      field := { field with modifiers := { field.modifiers with visibility := .privateAccess } } } := by
  unfold replaceField? at made
  dsimp only at made
  split at made
  · rename_i accessible
    cases made
    simp only [Bool.and_eq_true, bne_iff_ne] at accessible
    exact ⟨accessible.1.1, rfl⟩
  · cases made

end LogCalls
