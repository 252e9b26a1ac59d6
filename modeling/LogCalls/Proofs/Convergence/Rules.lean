import LogCalls.Proofs.Convergence.Members
import LogCalls.Proofs.Convergence.Templates

/-! # Every rule makes trees lighter

Each rule that a configuration can name suits the tariff of the configuration, alone or together with
others under one name. -/

namespace LogCalls

/-- The tariff of a configuration, for trees outside any class. -/
def Configuration.tariff (configuration : Configuration) : Tariff where
  target := configuration.target
  source := configuration.changeLevel.map (·.source)
  spreads := configuration.rules.contains "array-to-varargs"
  completes := configuration.rules.contains "complete-exception"
  loggerName := configuration.loggerName
  owner := ""

namespace Tariff

variable {tariff : Tariff}

theorem weight_classNameCall_le (tariff : Tariff) (expr : Expr) :
    tariff.weight expr.classNameCall ≤ 2 * tariff.weight expr + 118 := by
  have := tariff.severityCharge_le "getName"
  rw [Expr.classNameCall, Expr.call, weight_methodCall, price, charge,
    keyCharge_eq_zero (by decide), Option.toList_some, total_cons, total_nil, load]
  have level (method : Option ResolvedMethod) : levelCharge "getName" [] method = 0 := rfl
  have : tariff.messageCharge "getName" []
      (some (.onInstanceReturning ClassName.classObject "getName" .string)) ≤ 8 :=
    tariff.messageCharge_le_joints "getName" [] _
  rw [level]
  split <;> omega

/-- What a call asks for its logger by is no heavier than twice the old arguments and some more. -/
theorem factoryArguments_held (tariff : Tariff) {arguments : List Expr} {key : LoggerKey}
    (found : LoggerKey.ofArguments? arguments = some key) (target : Framework) (owner : String) :
    total Expr.hollowAccessors (key.factoryArguments target owner) ≤
        total Expr.hollowAccessors arguments ∧
      total tariff.weight (key.factoryArguments target owner) ≤
        2 * total tariff.weight arguments + 118 ∧
      Expr.jointsList (key.factoryArguments target owner) ≤ 1 := by
  have hollow (expr : Expr) : expr.classNameCall.hollowAccessors = expr.hollowAccessors := by
    simp [Expr.classNameCall, Expr.call, Expr.hollowAccessors, Expr.hollowAccessorsList,
      Expr.asksHollow, Expr.errorAccessors]
  have joints (expr : Expr) : expr.classNameCall.joints = 0 := rfl
  have weightless (fqn : String) : tariff.weight (.classLiteral fqn) = 0 := rfl
  obtain ⟨-, same | ⟨fqn, same | ⟨-, same⟩⟩⟩ | ⟨argument, rfl, scalar, same | ⟨-, same⟩⟩ :=
    LoggerKey.factoryArguments_cases found target owner
  · rw [same]
    simp [Expr.jointsList]
  · rw [same]
    simp [Expr.jointsList, Expr.joints, Expr.hollowAccessors, weightless]
  · have := tariff.weight_classNameCall_le (.classLiteral fqn)
    rw [weightless] at this
    rw [same]
    simp only [total_cons, total_nil, hollow, Expr.jointsList, joints, Expr.hollowAccessors]
    omega
  · have := Expr.joints_le_one scalar
    rw [same]
    simp only [total_cons, total_nil, Expr.jointsList]
    omega
  · have := tariff.weight_classNameCall_le argument
    rw [same]
    simp only [total_cons, total_nil, hollow, Expr.jointsList, joints]
    omega

/-- The call that asks for a logger is recognised. -/
theorem find?_factoryMethod (target : Framework) :
    Signature.find? target.factoryType target.factoryMethod = some ⟨some target, .factory⟩ := by
  cases target <;> decide

/-- A call that asks the target framework for a logger weighs at most twice as much as its arguments
and some more. -/
theorem weight_staticCall_le (tariff : Tariff) {arguments : List Expr}
    (joints : Expr.jointsList arguments ≤ 1) (type : JavaType) :
    tariff.weight (.staticCall tariff.target.factoryType tariff.target.factoryMethod arguments type) ≤
      2 * total tariff.weight arguments + 19 := by
  have settled : tariff.isSettled tariff.target.factoryMethod (some (.onClassReturning
      tariff.target.factoryType tariff.target.factoryMethod type)) = true :=
    isSettled_of_find? (find?_factoryMethod tariff.target)
  have := tariff.load_le arguments
  have := tariff.severityCharge_le tariff.target.factoryMethod
  have := tariff.messageCharge_le_joints tariff.target.factoryMethod arguments
    (some (.onClassReturning tariff.target.factoryType tariff.target.factoryMethod type))
  have level (method : Option ResolvedMethod) :
      levelCharge tariff.target.factoryMethod arguments method = 0 := by
    have other : tariff.target.factoryMethod ≠ "log" := by cases tariff.target <;> decide
    simp [levelCharge, other]
  have key : tariff.keyCharge tariff.target.factoryMethod arguments ≤ 1 := by
    unfold keyCharge
    split <;> omega
  have weightless : tariff.weight (.typeRef tariff.target.factoryType) = 0 := rfl
  rw [Expr.staticCall, Expr.call, weight_methodCall, price, if_pos settled, charge, level,
    Option.toList_some, total_cons, total_nil, weightless]
  omega

/-- A logger field that moves to the target framework is lighter. -/
theorem lightensField_migrate {settings : Migrate} (target : settings.target = tariff.target)
    {field : FieldDecl} {declared : ClassDecl} {scope : Scope} {replacement : FieldReplacement}
    (made : settings.replaceField? field declared scope = some replacement) :
    tariff.LightensField 1 field replacement.field := by
  obtain ⟨framework, initial, factory, typed, migrates, initialized, recognized, -, -, written, -⟩ :=
    Migrate.replaceField?_cases made
  obtain ⟨select, name, arguments, rfl, -, keyed⟩ := FactoryCall.recognize?_cases recognized
  rw [written, target]
  obtain ⟨hollow, weight, joints⟩ :=
    tariff.factoryArguments_held keyed tariff.target scope.current.fqn
  have call : tariff.target.factoryCall factory.key scope.current.fqn =
      .staticCall tariff.target.factoryType tariff.target.factoryMethod
        (factory.key.factoryArguments tariff.target scope.current.fqn)
        (.named tariff.target.loggerType) := rfl
  rw [call]
  refine ⟨⟨fun clean => ?_, fun _ => ?_⟩, rfl⟩
  · have held := Expr.valuation_hollowAccessors.call select name arguments (some factory.method)
    have other : tariff.target.factoryMethod ∉ Expr.tellingNames :=
      Signature.not_mem_tellingNames (find?_factoryMethod tariff.target)
    have typeRef : (Expr.typeRef tariff.target.factoryType).hollowAccessors = 0 := rfl
    simp only [FieldDecl.hollowAccessors, initialized, Option.toList_some, total_cons, total_nil] at clean ⊢
    rw [Expr.staticCall, Expr.call, hollowAccessors_methodCall other, Option.toList_some, total_cons,
      total_nil, typeRef]
    omega
  · have held := tariff.valuation_weight.call select name arguments (some factory.method)
    have call := tariff.weight_staticCall_le joints (.named tariff.target.loggerType)
    have moves : tariff.mayMove field = true := by
      rw [mayMove, typed, Option.any_some, ← target]
      exact (Bool.and_eq_true_iff.mp migrates).1
    have stays (initializer : Option Expr) :
        tariff.mayMove { field with type := settings.loggerType, initializer } = false := by
      simp [mayMove, Migrate.loggerType, JavaType.named, ClassType.named, JavaType.typeName, target]
    simp only [fieldWeight, moves, stays, initialized, Option.toList_some, total_cons, total_nil,
      if_true, Bool.false_eq_true, if_false]
    omega

/-- A logger field that is made private is lighter. -/
theorem lightensField_privateLogger {field : FieldDecl} {declared : ClassDecl}
    {replacement : FieldReplacement}
    (made : PrivateLogger.replaceField? field declared = some replacement) :
    tariff.LightensField 1 field replacement.field := by
  obtain ⟨visible, rfl⟩ := PrivateLogger.replaceField?_cases made
  refine ⟨⟨id, fun _ => ?_⟩, rfl⟩
  have same (modifiers : Modifiers) : tariff.mayMove { field with modifiers } = tariff.mayMove field :=
    rfl
  simp only [fieldWeight, same, visible, if_true, if_false]
  omega

/-! ## Requests -/

section Requests

variable {expr : Expr} {scope : Scope} {replacement : Replacement}

theorem field_migrate {settings : Migrate} (made : settings.replace? expr scope = some replacement) :
    replacement.effects.field = none := by
  obtain ⟨use, field, -, -, -, written⟩ := Migrate.replace?_cases made
  obtain ⟨receiver, -, nothing, -⟩ := Migrate.emit?_cases written
  exact nothing

theorem field_parameterize {settings : Parameterize} (made : settings.replace? expr = some replacement) :
    replacement.effects.field = none := by
  obtain ⟨call, framework, -, -, rfl⟩ := Parameterize.replace?_cases made
  exact LogEvent.field_emit _ _ _ _

theorem asksNothing_enclosingClass (made : EnclosingClass.replace? expr scope = some replacement) :
    replacement.effects.AsksNothing := by
  obtain ⟨_, _, _, _, -, -, -, -, rfl⟩ := EnclosingClass.replace?_cases made
  exact ⟨rfl, rfl⟩

theorem asksNothing_completeException (made : CompleteException.replace? expr = some replacement) :
    replacement.effects.AsksNothing := by
  obtain ⟨_, _, _, _, _, _, _, _, _, -, -, -, -, -, rfl⟩ := CompleteException.replace?_cases made
  exact ⟨rfl, rfl⟩

theorem asksNothing_changeLevel {settings : ChangeLevel}
    (made : settings.replace? expr = some replacement) :
    replacement.effects.AsksNothing := by
  obtain ⟨_, _, _, _, -, -, -, rfl⟩ := ChangeLevel.replace?_cases made
  exact ⟨rfl, rfl⟩

/-- An import that may be dropped is not asked for. -/
theorem asksNothing_levelMethod (made : LevelMethod.replace? expr = some replacement) :
    replacement.effects.AsksNothing := by
  obtain ⟨_, _, _, _, _, _, _, -, -, rfl⟩ := LevelMethod.replace?_cases made
  exact ⟨rfl, rfl⟩

theorem asksNothing_constantMessage (made : ConstantMessage.replace? expr = some replacement) :
    replacement.effects.AsksNothing := by
  obtain ⟨_, _, _, _, _, _, _, _, _, _, -, -, -, -, -, rfl⟩ := ConstantMessage.replace?_cases made
  exact ⟨rfl, rfl⟩

theorem asksNothing_spreadArray (made : SpreadArray.replace? expr = some replacement) :
    replacement.effects.AsksNothing := by
  obtain ⟨_, _, _, _, _, _, _, -, -, -, -, -, rfl⟩ := SpreadArray.replace?_cases made
  exact ⟨rfl, rfl⟩

end Requests

/-! ## Rules -/

/-- Where no field is asked for, there is nothing to be in reserve. -/
theorem asks_of_none {effects : Effects} (nothing : effects.field = none) : tariff.Asks effects :=
  fun _ asked => nomatch nothing.symm.trans asked

namespace Suits

/-- A rule for expressions suits if what it replaces gets lighter, and it asks for nothing. -/
theorem ofExpr {rule : Rule} {replace? : Expr → Scope → Option Replacement}
    (isForExprs : rule.IsForExprs replace?)
    (lightens : ∀ expr scope replacement, scope.current.fqn = tariff.owner →
      rule.applies expr scope = true → replace? expr scope = some replacement →
      tariff.Lightens 1 expr replacement.expr ∧ replacement.effects.field = none) :
    tariff.Suits rule where
  answers := ⟨fun expr scope => ⟨_, isForExprs.onExpr expr scope⟩,
    fun block scope => ⟨_, isForExprs.onBlock block scope⟩,
    fun field declared scope => ⟨_, isForExprs.onField field declared scope⟩,
    fun _ _ _ made => (isForExprs.ignores_block made).elim⟩
  replaces := .ofExpr isForExprs fun expr scope replacement applies made owned => by
    obtain ⟨lighter, nothing⟩ := lightens expr scope replacement owned applies made
    exact ⟨lighter, asks_of_none nothing⟩

/-- Offers of which none fails do not fail together. -/
theorem exists_firstOffer {α : Type} {offers : List (Offer α)}
    (answers : ∀ offer ∈ offers, ∃ reply, offer = .ok reply) :
    ∃ reply, Rule.firstOffer offers = .ok reply := by
  fun_induction Rule.firstOffer offers with
  | case1 => exact ⟨none, rfl⟩
  | case2 reason rest =>
    obtain ⟨reply, failed⟩ := answers (.error reason) List.mem_cons_self
    cases failed
  | case3 first rest => exact ⟨some first, rfl⟩
  | case4 rest ih =>
    exact ih fun offer member => answers offer (List.mem_cons_of_mem _ member)

/-- Several rules under one name suit if each of them does. -/
theorem bundle {rules : List Rule} (suits : ∀ rule ∈ rules, tariff.Suits rule)
    (name description : String) : tariff.Suits (.bundle name description rules) where
  answers := by
    refine ⟨fun expr scope => exists_firstOffer ?_, fun block scope => exists_firstOffer ?_,
      fun field declared scope => exists_firstOffer ?_, fun block scope replacement made => ?_⟩
    · intro offer offered
      obtain ⟨rule, member, rfl⟩ := List.mem_map.mp offered
      exact (suits rule (List.mem_filter.mp member).1).answers.onExpr expr scope
    · intro offer offered
      obtain ⟨rule, member, rfl⟩ := List.mem_map.mp offered
      exact (suits rule member).answers.onBlock block scope
    · intro offer offered
      obtain ⟨rule, member, rfl⟩ := List.mem_map.mp offered
      exact (suits rule member).answers.onField field declared scope
    · obtain ⟨rule, member, offered⟩ := Rule.onBlock_bundle made
      exact (suits rule member).answers.noDeeper block scope replacement offered
  replaces := .bundle fun rule member => (suits rule member).replaces

/-- The tariff knows the only logger that is asked for. -/
theorem request_redirect {settings : Redirect} (target : settings.target = tariff.target)
    (named : settings.loggerPolicy.fieldName = tariff.loggerName) :
    settings.request tariff.owner = tariff.request := by
  rw [Redirect.request, Tariff.request, named, target]

/-- The rule for console writes suits. -/
theorem console {settings : Redirect} (target : settings.target = tariff.target)
    (named : settings.loggerPolicy.fieldName = tariff.loggerName) :
    tariff.Suits settings.consoleRule := by
  refine ⟨⟨fun _ _ => ⟨_, rfl⟩, fun _ _ => ⟨_, rfl⟩, fun _ _ _ => ⟨_, rfl⟩, ?_⟩, ?_, ?_, nofun⟩
  · intro block scope replacement made
    obtain ⟨-, rfl⟩ := Redirect.replaceBlock?_cases (Except.ok.inj made)
    exact Redirect.blockDepthList_mergePairs scope.current block
  · intro expr scope replacement _ made owned
    obtain ⟨call, recognized, prints, emitted⟩ :=
      Redirect.replaceConsole?_cases (Except.ok.inj made)
    refine ⟨lightens_prints target recognized prints emitted, fun _ asked => ?_⟩
    rw [Redirect.request_emit? emitted asked, owned, request_redirect target named]
  · intro block scope replacement made owned
    have made : settings.replaceBlock? block scope = some replacement := Except.ok.inj made
    refine ⟨lightensBlock_redirect target made, fun other asked => ?_⟩
    obtain ⟨-, rfl⟩ := Redirect.replaceBlock?_cases made
    rw [Redirect.request_mergePairs _ _ asked, owned, request_redirect target named]

/-- The rule for printed stack traces suits. -/
theorem stackTrace {settings : Redirect} (target : settings.target = tariff.target)
    (named : settings.loggerPolicy.fieldName = tariff.loggerName) :
    tariff.Suits settings.stackTraceRule := by
  refine ⟨⟨fun _ _ => ⟨_, rfl⟩, fun _ _ => ⟨_, rfl⟩, fun _ _ _ => ⟨_, rfl⟩, nofun⟩, ?_, nofun, nofun⟩
  intro expr scope replacement _ made owned
  obtain ⟨call, recognized, prints, emitted⟩ := Redirect.replaceTrace?_cases (Except.ok.inj made)
  refine ⟨lightens_prints target recognized prints emitted, fun _ asked => ?_⟩
  rw [Redirect.request_emit? emitted asked, owned, request_redirect target named]

/-- The rule for migration suits. -/
theorem migrate {settings : Migrate} (target : settings.target = tariff.target) :
    tariff.Suits settings.rule := by
  refine ⟨⟨fun _ _ => ⟨_, rfl⟩, fun _ _ => ⟨_, rfl⟩, fun _ _ _ => ⟨_, rfl⟩, nofun⟩, ?_, nofun, ?_⟩
  · intro expr scope replacement _ made _
    have made : settings.replace? expr scope = some replacement := Except.ok.inj made
    exact ⟨lightens_migrate target made, asks_of_none (field_migrate made)⟩
  · intro field declared scope replacement made _
    exact lightensField_migrate target (Except.ok.inj made)

/-- The rule for private loggers suits. -/
theorem privateLogger : tariff.Suits PrivateLogger.rule := by
  refine ⟨⟨fun _ _ => ⟨_, rfl⟩, fun _ _ => ⟨_, rfl⟩, fun _ _ _ => ⟨_, rfl⟩, nofun⟩, nofun, nofun, ?_⟩
  intro field declared scope replacement made _
  exact lightensField_privateLogger (Except.ok.inj made)

end Suits

end Tariff

/-- **Every rule makes trees lighter.** The rules that a configuration names suit its tariff in every
class. -/
theorem Configuration.suits_of_buildRule {configuration : Configuration} {name : String} {rule : Rule}
    (listed : name ∈ configuration.rules) (built : configuration.buildRule name = .ok rule)
    (owner : String) : (configuration.tariff.within owner).Suits rule := by
  cases builds_of_buildRule built with
  | @parameterize settings parsed =>
    exact .ofExpr settings.isForExprs_rule fun _ _ _ _ _ made =>
      ⟨Tariff.lightens_parameterize made, Tariff.field_parameterize made⟩
  | stackTrace => exact .stackTrace rfl rfl
  | console => exact .console rfl rfl
  | print =>
    exact .bundle (List.forall_mem_cons.mpr ⟨.console rfl rfl,
      List.forall_mem_singleton.mpr (.stackTrace rfl rfl)⟩) _ _
  | migrate => exact .migrate rfl
  | enclosingClass =>
    exact .ofExpr EnclosingClass.isForExprs_rule fun _ _ _ owned _ made =>
      ⟨Tariff.lightens_enclosingClass owned made, (Tariff.asksNothing_enclosingClass made).field⟩
  | completeException =>
    have completes : (configuration.tariff.within owner).completes = true :=
      List.contains_iff_mem.mpr listed
    exact .ofExpr CompleteException.isForExprs_rule fun _ _ _ _ _ made =>
      ⟨Tariff.lightens_completeException completes made,
        (Tariff.asksNothing_completeException made).field⟩
  | @changeLevel settings given =>
    have source : (configuration.tariff.within owner).source = some settings.source := by
      simp [Tariff.within, Configuration.tariff, given]
    refine .ofExpr settings.isForExprs_rule fun _ _ _ _ applies made =>
      ⟨Tariff.lightens_changeLevel source ?_ made, (Tariff.asksNothing_changeLevel made).field⟩
    simpa using (Bool.and_eq_true_iff.mp applies).1
  | levelMethod =>
    exact .ofExpr LevelMethod.isForExprs_rule fun _ _ _ _ applies made =>
      ⟨Tariff.lightens_levelMethod applies made, (Tariff.asksNothing_levelMethod made).field⟩
  | constantMessage =>
    exact .ofExpr ConstantMessage.isForExprs_rule fun _ _ _ _ _ made =>
      ⟨Tariff.lightens_constantMessage made, (Tariff.asksNothing_constantMessage made).field⟩
  | spreadArray =>
    have spreads : (configuration.tariff.within owner).spreads = true :=
      List.contains_iff_mem.mpr listed
    exact .ofExpr SpreadArray.isForExprs_rule fun _ _ _ _ _ made =>
      ⟨Tariff.lightens_spreadArray spreads made, (Tariff.asksNothing_spreadArray made).field⟩
  | privateLogger => exact .privateLogger

end LogCalls
