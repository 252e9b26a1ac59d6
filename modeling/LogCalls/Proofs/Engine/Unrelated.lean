import LogCalls.Proofs.Engine.Frame
import LogCalls.Proofs.Engine.Spares
import LogCalls.Proofs.Order.Rules

/-! # Code that has nothing to do with logging

Rules look for calls by their names, by the types that declare them, by the fields that they initialize
and by the statements around them. In the end all of them, except for the one that makes loggers
private, ask whether the method of a call is registered. So a pass has nothing to do in a unit in which
no such method is called. -/

namespace LogCalls

/-! ## Registered calls -/

theorem Expr.signature?_ne_none {select : Option Expr} {name : String} {method : ResolvedMethod}
    {signature : Signature} (resolved : resolveSignature? select name method = some signature)
    (arguments : List Expr) :
    (Expr.methodCall select name arguments (some method)).signature? ≠ none := by
  rw [signature?, resolved]
  exact Option.some_ne_none signature

theorem LogCall.signature?_ne_none_of_recognize? {options : RecognizeOptions} {expr : Expr}
    {call : LogCall} (recognized : recognize? options expr = some call) : expr.signature? ≠ none := by
  unfold recognize? at recognized
  split at recognized
  · obtain ⟨signature, resolved, -⟩ := Option.bind_eq_some_iff.mp recognized
    exact Expr.signature?_ne_none resolved _
  · cases recognized

theorem FactoryCall.signature?_ne_none_of_recognize? {expr : Expr} {factory : FactoryCall}
    (recognized : recognize? expr = some factory) : expr.signature? ≠ none := by
  obtain ⟨select, name, arguments, rfl, resolved, -⟩ := recognize?_cases recognized
  exact Expr.signature?_ne_none resolved arguments

/-- The rule replaces only calls of registered methods, blocks with such a call as a statement, and
fields that are initialized by one. -/
abbrev Rule.HeedsRegistry (rule : Rule) : Prop := rule.Heeds (·.signature? = none)

namespace Rule.HeedsRegistry

/-- A rule for expressions heeds the registry if it replaces only calls of registered methods. -/
theorem ofRegistered {rule : Rule} {replace? : Expr → Scope → Option Replacement}
    (isForExprs : rule.IsForExprs replace?)
    (registered : ∀ expr scope replacement, rule.applies expr scope = true →
      replace? expr scope = some replacement → expr.signature? ≠ none) :
    rule.HeedsRegistry :=
  .ofExpr isForExprs fun expr scope replacement applies made _ =>
    registered expr scope replacement applies made

/-- A block is only replaced if two of its statements make a pair, and the first of them writes to the
console. -/
theorem of_replaceBlock? {settings : Redirect} {block : List Statement} {scope : Scope}
    {replacement : BlockReplacement} (made : settings.replaceBlock? block scope = some replacement) :
    ∃ value, .expression value ∈ block ∧ value.signature? ≠ none := by
  by_contra others
  have settled : settings.Settled block := by
    rw [Redirect.Settled, List.isChain_iff_forall_rel_of_append_cons_cons]
    rintro first second before after rfl
    refine Option.eq_none_iff_forall_ne_some.mpr fun event merged => others ?_
    obtain ⟨print, _, write, _, _, rfl, -, recognized, -⟩ := Redirect.mergedEvent?_cases merged
    exact ⟨print, by simp, LogCall.signature?_ne_none_of_recognize? recognized⟩
  rw [Redirect.replaceBlock?, Redirect.mergePairs_of_settled settled] at made
  simp at made

theorem console (settings : Redirect) : settings.consoleRule.HeedsRegistry where
  onExpr _ made _ := by
    obtain ⟨call, recognized, -⟩ := Redirect.replaceConsole?_cases (Except.ok.inj made)
    exact LogCall.signature?_ne_none_of_recognize? recognized
  onBlock made := of_replaceBlock? (Except.ok.inj made)
  onField made := by cases made

theorem stackTrace (settings : Redirect) : settings.stackTraceRule.HeedsRegistry :=
  .ofRegistered settings.isForExprs_stackTraceRule <| by
    intro expr scope replacement _ made
    obtain ⟨call, recognized, -⟩ := Redirect.replaceTrace?_cases made
    exact LogCall.signature?_ne_none_of_recognize? recognized

/-- What is carried over logs or is a check, and a field that moves is initialized by a factory. -/
theorem migrate (settings : Migrate) : settings.rule.HeedsRegistry where
  onExpr _ made _ := by
    obtain ⟨use, field, planned, -⟩ := Migrate.replace?_cases (Except.ok.inj made)
    obtain ⟨-, framework, -, -, ⟨call, -, recognized, -⟩ | ⟨check, -, -, recognized, -⟩⟩ :=
      Migrate.plan?_cases planned
    · exact LogCall.signature?_ne_none_of_recognize? recognized
    · obtain ⟨name, arguments, method, rfl, ⟨resolved, -⟩ | ⟨resolved, -⟩⟩ :=
        LevelCheck.recognize?_cases recognized
      all_goals exact Expr.signature?_ne_none resolved arguments
  onBlock made := by cases made
  onField made := by
    obtain ⟨framework, initial, factory, -, -, initialized, recognized, -⟩ :=
      Migrate.replaceField?_cases (Except.ok.inj made)
    exact ⟨initial, initialized, FactoryCall.signature?_ne_none_of_recognize? recognized⟩

end Rule.HeedsRegistry

/-- **All rules but one heed the registry.** The other one makes loggers private. -/
theorem Configuration.heedsRegistry_of_buildRule {configuration : Configuration} {name : String}
    {rule : Rule} (built : configuration.buildRule name = .ok rule)
    (other : name ≠ "private-loggers") : rule.HeedsRegistry := by
  cases builds_of_buildRule built with
  | @parameterize settings parsed =>
    refine .ofRegistered settings.isForExprs_rule fun expr scope replacement _ made => ?_
    obtain ⟨call, framework, recognized, -⟩ := Parameterize.replace?_cases made
    exact LogCall.signature?_ne_none_of_recognize? recognized
  | stackTrace => exact .stackTrace configuration.redirect
  | console => exact .console configuration.redirect
  | print =>
    exact .redirect (Rule.HeedsRegistry.console configuration.redirect)
      (Rule.HeedsRegistry.stackTrace configuration.redirect)
  | migrate => exact .migrate configuration.migrate
  | enclosingClass =>
    refine .ofRegistered EnclosingClass.isForExprs_rule fun expr scope replacement _ made => ?_
    obtain ⟨factory, recognized, -⟩ := Option.bind_eq_some_iff.mp made
    exact FactoryCall.signature?_ne_none_of_recognize? recognized
  | completeException =>
    refine .ofRegistered CompleteException.isForExprs_rule fun expr scope replacement _ made => ?_
    obtain ⟨select, name, arguments, method, framework, severity, _, _, _, rfl, resolved, -⟩ :=
      CompleteException.replace?_cases made
    exact Expr.signature?_ne_none resolved arguments
  | @changeLevel settings given =>
    refine .ofRegistered settings.isForExprs_rule fun expr scope replacement _ made => ?_
    obtain ⟨select, arguments, method, framework, rfl, resolved, -⟩ :=
      ChangeLevel.replace?_cases made
    exact Expr.signature?_ne_none resolved arguments
  | levelMethod =>
    -- The rule itself looks at the level and at the message only, but it applies to one method.
    refine .ofRegistered LevelMethod.isForExprs_rule fun expr scope replacement applies _ => ?_
    obtain ⟨shape, resolved, -⟩ := LevelMethod.logs_of_isLevelCall applies
    rw [resolved]
    exact Option.some_ne_none _
  | constantMessage =>
    refine .ofRegistered ConstantMessage.isForExprs_rule fun expr scope replacement _ made => ?_
    obtain ⟨select, name, arguments, method, framework, severity, _, _, _, _, rfl, resolved, -⟩ :=
      ConstantMessage.replace?_cases made
    exact Expr.signature?_ne_none resolved arguments
  | spreadArray =>
    refine .ofRegistered SpreadArray.isForExprs_rule fun expr scope replacement _ made => ?_
    obtain ⟨select, name, leading, element, elements, found, index, rfl, -, stands, -⟩ :=
      SpreadArray.replace?_cases made
    obtain ⟨method, framework, shape, offset, rfl, resolved, -⟩ :=
      SpreadArray.messageIndex?_cases stands
    exact Expr.signature?_ne_none resolved _
  | privateLogger => exact absurd rfl other

namespace Engine

theorem maxCycles_of_ofConfiguration {configuration : Configuration} {engine : Engine}
    (built : ofConfiguration configuration = .ok engine) :
    engine.maxCycles = configuration.maxCycles := by
  unfold ofConfiguration at built
  cases rules : configuration.buildRules with
  | error error =>
    rw [rules] at built
    cases built
  | ok made =>
    rw [rules] at built
    cases built
    rfl

/-- **Code that has nothing to do with logging is never touched.** Whatever rules a configuration lists,
apart from the one that makes loggers private, a unit in which no registered method is called is its own
outcome, after one pass without a replacement. The budget has to allow for that pass, which is what
`Configuration.validate` asks of it. -/
theorem transform_unrelated (configuration : Configuration) (engine : Engine)
    (statistics : Statistics) (unit : CompilationUnit)
    (built : ofConfiguration configuration = .ok engine) (budget : 0 < configuration.maxCycles)
    (listed : "private-loggers" ∉ configuration.rules)
    (unregistered : ∀ site ∈ unit.sites, site.expr.signature? = none) :
    (engine.transform statistics unit).1 =
      .ok { unit, summary := { unitsChanged := 0, replacements := 0, cycles := 1, errors := [] } } := by
  have heed : ∀ rule ∈ engine.rules, rule.HeedsRegistry := by
    intro rule member
    obtain ⟨name, inRules, made⟩ := exists_of_mem_ofConfiguration built member
    refine Configuration.heedsRegistry_of_buildRule made fun same => listed ?_
    rw [← same]
    exact inRules
  have answers : ∀ rule ∈ engine.rules, Pass.Answers rule :=
    fun rule member => (suits_of_ofConfiguration built "" rule member).answers
  obtain ⟨visited, after, run⟩ := Pass.succeeds_visitUnit answers unit { statistics }
  obtain ⟨-, count, counted, rfl⟩ :=
    Pass.spares_visitUnit heed unregistered _ _ _ trivial run
  have idle : (engine.cycle statistics unit).1 = .ok (visited, 0) :=
    cycle_eq_ok.mpr ⟨after, run, counted⟩
  obtain ⟨rfl, -⟩ := cycle_idle idle
  refine transform_of_idle ?_ statistics idle
  rwa [maxCycles_of_ofConfiguration built]

/-- Calls that look like console writes and like calls of a logger but are calls of other methods, in an
initializer, in a lambda and in a nested class, next to a logger that no factory initializes. -/
theorem transform_unrelated_lookalikes :
    let configuration : Configuration := {
      rules := ["migrate", "console", "print-stack-trace", "level-method", "enclosing-class"] }
    let rules := [configuration.migrate.rule, configuration.redirect.consoleRule,
      configuration.redirect.stackTraceRule, LevelMethod.rule, EnclosingClass.rule]
    let engine : Engine := { rules, maxCycles := 10 }
    let report := Expr.ident "report" (.named "app.Report")
    let print (arguments : List Expr) : Expr :=
      .call report "println" arguments (.onInstance "app.Report" "println")
    let level := Expr.fieldAccess (.typeRef "java.util.logging.Level") "INFO" none
    let log : Expr := .call report "log" [level, .string "x"] (.onInstance "app.Report" "log")
    let unresolved : Expr := .methodCall none "printStackTrace" [] none
    let logger : FieldDecl := {
      name := "logger", type := .named "java.util.logging.Logger"
      initializer := some (.staticCall "app.Loggers" "getLogger" [.classLiteral "D"]
        (.named "java.util.logging.Logger")) }
    let unit : CompilationUnit := {
      classes := [.decl { name := "C", fqn := "C" } [logger]
        [{ name := "m", body := [
          .expression (.lambda [] [.expression (print [.string "y"]), .expression unresolved])] }]
        [.decl { name := "D", fqn := "C.D" } []
          [{ name := "n", body := [.expression (print [log])] }] []]] }
    ofConfiguration configuration = .ok engine ∧ 0 < configuration.maxCycles ∧
      "private-loggers" ∉ configuration.rules ∧
      (∀ site ∈ unit.sites, site.expr.signature? = none) ∧
      (engine.transform {} unit).1 =
        .ok { unit, summary := { unitsChanged := 0, replacements := 0, cycles := 1, errors := [] } } := by
  intro configuration rules engine report print level log unresolved logger unit
  have sorted : Rule.byPriority rules = rules :=
    List.mergeSort_of_pairwise (by
      simp [rules, Migrate.rule, Redirect.consoleRule, Redirect.stackTraceRule, LevelMethod.rule,
        EnclosingClass.rule])
  have built : ofConfiguration configuration = .ok engine := by
    have step : ofConfiguration configuration =
        .ok { rules := Rule.byPriority rules, maxCycles := 10 } := rfl
    rw [step, sorted]
  have budget : 0 < configuration.maxCycles := by decide
  have listed : "private-loggers" ∉ configuration.rules := by decide
  have unregistered : ∀ site ∈ unit.sites, site.expr.signature? = none := by decide
  exact ⟨built, budget, listed, unregistered,
    transform_unrelated configuration engine {} unit built budget listed unregistered⟩

/-- An engine is built from a configuration without a budget too, since nobody asks there whether the
configuration is valid. Even a unit that holds nothing at all has no outcome then. -/
theorem transform_unrelated_needs_budget :
    let configuration : Configuration := { rules := ["migrate"], maxCycles := 0 }
    let engine : Engine := { rules := [configuration.migrate.rule], maxCycles := 0 }
    let unit : CompilationUnit := { classes := [.decl { name := "C", fqn := "C" } [] [] []] }
    ofConfiguration configuration = .ok engine ∧ "private-loggers" ∉ configuration.rules ∧
      (∀ site ∈ unit.sites, site.expr.signature? = none) ∧
      configuration.validate = .error (.configuration .noCycles) ∧
      (engine.transform {} unit).1 = .error (.nonConvergence "C" 0) := by
  intro configuration engine unit
  have sorted : Rule.byPriority engine.rules = engine.rules := List.mergeSort_singleton _
  refine ⟨?_, by decide, by decide, rfl, by decide⟩
  exact congrArg (fun rules => Except.ok ({ rules, maxCycles := 0 } : Engine)) sorted

end Engine

end LogCalls
