import LogCalls.Proofs.Engine.Frame
import LogCalls.Proofs.Order.Rules

/-! # The order of rules

The order in which a configuration lists its rules matters only for rules that depend on each other. -/

namespace LogCalls

/-- Rules whose priorities keep them in order, or that may change places. -/
def Rule.Exchange (first second : Rule) : Prop :=
  first.priority ≠ second.priority ∨ first.Exchangeable second ∧ second.Exchangeable first

/-- The rules are exchanged where their names are. -/
theorem Configuration.exchanged_buildRules {configuration : Configuration} {names others : List String}
    (exchanged : Exchanged (fun first second => first ≠ second ∧ ¬ independent first second = false)
      names others) {rules : List Rule} (built : names.mapM configuration.buildRule = .ok rules) :
    ∃ reordered, others.mapM configuration.buildRule = .ok reordered ∧
      Exchanged Rule.Exchange rules reordered := by
  induction exchanged generalizing rules with
  | refl names => exact ⟨rules, built, .refl rules⟩
  | cons name _ ih =>
    obtain ⟨rule, rest, first, later, rfl⟩ := mapM_buildRule_cons.mp built
    obtain ⟨reordered, built, exchanged⟩ := ih later
    exact ⟨rule :: reordered, mapM_buildRule_cons.mpr ⟨rule, reordered, first, built, rfl⟩,
      .cons rule exchanged⟩
  | swap rest holds =>
    obtain ⟨former, _, first, following, rfl⟩ := mapM_buildRule_cons.mp built
    obtain ⟨latter, others, second, later, rfl⟩ := mapM_buildRule_cons.mp following
    refine ⟨latter :: former :: others, ?_, .swap others ?_⟩
    · exact mapM_buildRule_cons.mpr
        ⟨latter, _, second, mapM_buildRule_cons.mpr ⟨former, others, first, later, rfl⟩, rfl⟩
    · exact exchangeable_of_independent (eq_true_of_ne_false holds.2) holds.1 first second
  | trans _ _ former latter =>
    obtain ⟨between, built, toBetween⟩ := former built
    obtain ⟨reordered, built, toReordered⟩ := latter built
    exact ⟨reordered, built, toBetween.trans toReordered⟩

namespace Engine

/-- **Order matters only for rules that depend on each other.** An engine whose rules are listed in
another order gives the same outcome for every unit, if rules that are not independent of each other
keep their order. -/
theorem transform_reordered (configuration : Configuration) (names : List String) (engine : Engine)
    (built : ofConfiguration configuration = .ok engine)
    (reordered : Reordered (fun first second => Configuration.independent first second = false)
      configuration.rules names) :
    ∃ other, ofConfiguration { configuration with rules := names } = .ok other ∧
      ∀ statistics counted unit,
        (other.transform counted unit).1 = (engine.transform statistics unit).1 := by
  have answers : ∀ rule ∈ engine.rules, Pass.Answers rule := fun rule member =>
    (suits_of_ofConfiguration built "" rule member).answers
  cases known : configuration.buildRules with
  | error error =>
    rw [ofConfiguration, known] at built
    cases built
  | ok rules =>
    rw [ofConfiguration, known] at built
    cases built
    obtain ⟨others, rebuilt, exchanged⟩ := Configuration.exchanged_buildRules reordered.exchanged known
    let other : Engine := { rules := Rule.byPriority others, maxCycles := configuration.maxCycles }
    have made : ofConfiguration { configuration with rules := names } = .ok other := by
      have same : Configuration.buildRules { configuration with rules := names } = .ok others :=
        rebuilt
      rw [ofConfiguration, same]
      rfl
    refine ⟨other, made, fun statistics counted unit => ?_⟩
    -- Where the priorities differ, the sort undoes the exchange; what is left are exchanges of rules
    -- that may change places.
    have follow := Pass.follow_of_exchanged ((Rule.exchanged_byPriority exchanged).imp
      fun first second both => both.2.resolve_left (fun differ => differ both.1))
    exact (@transform_of_follow _ other follow (Nat.le_refl 100) answers rfl statistics counted unit).symm

/-- Two detached rules change places with others, and with each other. -/
theorem transform_reordered_detached :
    let configuration : Configuration :=
      { rules := ["migrate", "system-print", "parameterize-messages", "enclosing-class"] }
    let names := ["enclosing-class", "system-print", "migrate", "parameterize-messages"]
    let engine : Engine := {
      rules := [configuration.migrate.rule, configuration.redirect.rule, Parameterize.rule {},
        EnclosingClass.rule] }
    ofConfiguration configuration = .ok engine ∧
      Reordered (fun first second => Configuration.independent first second = false)
        configuration.rules names ∧
      ∃ other, ofConfiguration { configuration with rules := names } = .ok other ∧
        ∀ statistics counted unit,
          (other.transform counted unit).1 = (engine.transform statistics unit).1 := by
  intro configuration names engine
  have sorted : Rule.byPriority engine.rules = engine.rules :=
    List.mergeSort_of_pairwise (by
      simp [engine, Migrate.rule, Redirect.rule, Rule.bundle, Redirect.consoleRule,
        Redirect.stackTraceRule, Parameterize.rule, EnclosingClass.rule])
  have built : ofConfiguration configuration = .ok engine := by
    have step : ofConfiguration configuration = .ok { rules := Rule.byPriority engine.rules } := rfl
    rw [step, sorted]
  have reordered : Reordered (fun first second => Configuration.independent first second = false)
      configuration.rules names := by
    refine ⟨by decide, fun {first second} depends => ?_⟩
    -- Rules that depend on others are not detached, so only the other two can be among them.
    have bound : (Configuration.detachedRules.contains first ||
        Configuration.detachedRules.contains second) = false := by
      refine Bool.eq_false_iff.mpr fun detached => ?_
      rw [Configuration.independent, Bool.or_eq_false_iff, Configuration.separate,
        Configuration.separate] at depends
      simp_all
    simp only [Configuration.detachedRules, List.contains_eq_mem, Bool.or_eq_false_iff,
      decide_eq_false_iff_not, List.mem_cons, List.not_mem_nil, or_false, not_or] at bound
    obtain ⟨⟨notMoved, notNamed, -⟩, notMoved', notNamed', -⟩ := bound
    simp [among, List.filter_cons, configuration, names, Ne.symm notMoved, Ne.symm notNamed,
      Ne.symm notMoved', Ne.symm notNamed']
  exact ⟨built, reordered, transform_reordered configuration names engine built reordered⟩

/-- A template puts the level of a call on the platform's logger into an argument, where it is no longer
changed. So the call gets another level only if that comes before the template. -/
theorem transform_order_matters :
    let change : ChangeLevel := { source := .info, target := .warn }
    let configuration (rules : List String) : Configuration := { rules, changeLevel := some change }
    let logger := Expr.ident "logger" (.named "java.util.logging.Logger")
    let value := Expr.ident "b" .string
    let unit (call : Expr) : CompilationUnit := {
      classes := [.decl { name := "C", fqn := "C" } []
        [{ name := "m", body := [.expression call] }] []] }
    let start := unit (.call logger "info" [.concat (.string "a") value]
      (.onInstance "java.util.logging.Logger" "info"))
    let logged (level : String) : CompilationUnit :=
      { unit (.call logger "log"
          [.constant "java.util.logging.Level" level, .string "a\x7b0\x7d", value]
          (.onInstance "java.util.logging.Logger" "log")) with
        imports := [{ typeName := "java.util.logging.Level" }] }
    ["parameterize-messages", "change-level"].Perm ["change-level", "parameterize-messages"] ∧
      (∃ engine, ofConfiguration (configuration ["parameterize-messages", "change-level"]) =
          .ok engine ∧
        (engine.transform {} start).1.map (·.unit) = .ok (logged "INFO")) ∧
      (∃ engine, ofConfiguration (configuration ["change-level", "parameterize-messages"]) =
          .ok engine ∧
        (engine.transform {} start).1.map (·.unit) = .ok (logged "WARNING")) ∧
      logged "INFO" ≠ logged "WARNING" := by
  intro change configuration logger value unit start logged
  have sorted (rules : List Rule) (equal : ∀ rule ∈ rules, rule.priority = 100) :
      Rule.byPriority rules = rules :=
    List.mergeSort_of_pairwise (List.pairwise_of_forall_mem_list fun first member second other => by
      simp [equal first member, equal second other])
  have equal : ∀ rule ∈ [Parameterize.rule {}, change.rule], rule.priority = 100 := by
    simp [Parameterize.rule, ChangeLevel.rule]
  let former : Engine := { rules := [Parameterize.rule {}, change.rule] }
  let latter : Engine := { rules := [change.rule, Parameterize.rule {}] }
  have builtFormer : ofConfiguration (configuration ["parameterize-messages", "change-level"]) =
      .ok former := by
    have step : ofConfiguration (configuration ["parameterize-messages", "change-level"]) =
        .ok { rules := Rule.byPriority former.rules } := rfl
    rw [step, sorted _ equal]
  have builtLatter : ofConfiguration (configuration ["change-level", "parameterize-messages"]) =
      .ok latter := by
    have step : ofConfiguration (configuration ["change-level", "parameterize-messages"]) =
        .ok { rules := Rule.byPriority latter.rules } := rfl
    rw [step, sorted latter.rules fun rule member => equal rule (List.mem_reverse.mp member)]
  have runFormer : (former.transform {} start).1.map (·.unit) = .ok (logged "INFO") := by decide
  have runLatter : (latter.transform {} start).1.map (·.unit) = .ok (logged "WARNING") := by decide
  have differ : logged "INFO" ≠ logged "WARNING" := by decide
  exact ⟨by decide, ⟨former, builtFormer, runFormer⟩, ⟨latter, builtLatter, runLatter⟩, differ⟩

end Engine

end LogCalls
