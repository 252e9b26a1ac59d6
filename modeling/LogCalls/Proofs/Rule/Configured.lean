import LogCalls.Engine.Basic

/-! # The rules that a configuration builds

A rule has one name in configurations, and its settings come from the configuration. What is true of
every rule is proved by going through these names. Most rules are about expressions only, and a bundle
offers nothing but what one of its rules offers. -/

namespace LogCalls

/-! ## Rules for expressions -/

namespace Rule

/-- The rule replaces expressions as the function says, and leaves blocks and fields alone. -/
structure IsForExprs (rule : Rule) (replace? : Expr → Scope → Option Replacement) : Prop where
  onExpr (expr : Expr) (scope : Scope) : rule.onExpr expr scope = .ok (replace? expr scope)
  onBlock (block : List Statement) (scope : Scope) : rule.onBlock block scope = .ok none
  onField (field : FieldDecl) (declared : ClassDecl) (scope : Scope) :
    rule.onField field declared scope = .ok none

namespace IsForExprs

variable {rule : Rule} {replace? : Expr → Scope → Option Replacement} {scope : Scope}

/-- What the rule makes, its function makes. -/
theorem replaces (isForExprs : rule.IsForExprs replace?) {expr : Expr} {replacement : Replacement}
    (made : rule.onExpr expr scope = .ok (some replacement)) :
    replace? expr scope = some replacement := by
  rw [isForExprs.onExpr] at made
  exact Except.ok.inj made

/-- The rule changes no block. -/
theorem ignores_block (isForExprs : rule.IsForExprs replace?) {block : List Statement}
    {replacement : BlockReplacement} : rule.onBlock block scope ≠ .ok (some replacement) := by
  intro made
  rw [isForExprs.onBlock] at made
  cases made

/-- The rule changes no field. -/
theorem ignores_field (isForExprs : rule.IsForExprs replace?) {field : FieldDecl}
    {declared : ClassDecl} {replacement : FieldReplacement} :
    rule.onField field declared scope ≠ .ok (some replacement) := by
  intro made
  rw [isForExprs.onField] at made
  cases made

end IsForExprs

/-- What the rule puts in place of expressions, blocks and fields is as the relations say. -/
structure Replaces (exprs : Expr → Scope → Replacement → Prop)
    (blocks : List Statement → Scope → BlockReplacement → Prop)
    (fields : FieldDecl → ClassDecl → Scope → FieldReplacement → Prop) (rule : Rule) : Prop where
  onExpr {expr : Expr} {scope : Scope} {replacement : Replacement} :
    rule.applies expr scope = true → rule.onExpr expr scope = .ok (some replacement) →
      exprs expr scope replacement
  onBlock {block : List Statement} {scope : Scope} {replacement : BlockReplacement} :
    rule.onBlock block scope = .ok (some replacement) → blocks block scope replacement
  onField {field : FieldDecl} {declared : ClassDecl} {scope : Scope} {replacement : FieldReplacement} :
    rule.onField field declared scope = .ok (some replacement) → fields field declared scope replacement

end Rule

/-- Parameterizing is for expressions. -/
theorem Parameterize.isForExprs_rule (settings : Parameterize) :
    settings.rule.IsForExprs fun expr _ => settings.replace? expr :=
  ⟨fun _ _ => rfl, fun _ _ => rfl, fun _ _ _ => rfl⟩

/-- So is redirecting stack traces. -/
theorem Redirect.isForExprs_stackTraceRule (settings : Redirect) :
    settings.stackTraceRule.IsForExprs settings.replaceTrace? :=
  ⟨fun _ _ => rfl, fun _ _ => rfl, fun _ _ _ => rfl⟩

/-- So is naming the enclosing class. -/
theorem EnclosingClass.isForExprs_rule : rule.IsForExprs replace? :=
  ⟨fun _ _ => rfl, fun _ _ => rfl, fun _ _ _ => rfl⟩

/-- So is passing the whole exception. -/
theorem CompleteException.isForExprs_rule : rule.IsForExprs fun expr _ => replace? expr :=
  ⟨fun _ _ => rfl, fun _ _ => rfl, fun _ _ _ => rfl⟩

/-- So is changing levels. -/
theorem ChangeLevel.isForExprs_rule (settings : ChangeLevel) :
    settings.rule.IsForExprs fun expr _ => settings.replace? expr :=
  ⟨fun _ _ => rfl, fun _ _ => rfl, fun _ _ _ => rfl⟩

/-- So is calling the level's method. -/
theorem LevelMethod.isForExprs_rule : rule.IsForExprs fun expr _ => replace? expr :=
  ⟨fun _ _ => rfl, fun _ _ => rfl, fun _ _ _ => rfl⟩

/-- So is making messages constant. -/
theorem ConstantMessage.isForExprs_rule : rule.IsForExprs fun expr _ => replace? expr :=
  ⟨fun _ _ => rfl, fun _ _ => rfl, fun _ _ _ => rfl⟩

/-- So is spreading arrays. -/
theorem SpreadArray.isForExprs_rule : rule.IsForExprs fun expr _ => replace? expr :=
  ⟨fun _ _ => rfl, fun _ _ => rfl, fun _ _ _ => rfl⟩

/-! ## Bundles -/

namespace Rule

/-- The first replacement that is offered comes from one of the offers. -/
theorem firstOffer_cases {α : Type} {offers : List (Offer α)} {replacement : α}
    (made : firstOffer offers = .ok (some replacement)) : .ok (some replacement) ∈ offers := by
  fun_induction firstOffer offers with
  | case1 => cases made
  | case2 => cases made
  | case3 first rest =>
    cases made
    exact List.mem_cons_self
  | case4 rest ih => exact List.mem_cons_of_mem _ (ih made)

variable {name description : String} {rules : List Rule} {scope : Scope}

/-- A bundle's replacement is that of a rule. -/
theorem onExpr_bundle {expr : Expr} {replacement : Replacement}
    (made : (bundle name description rules).onExpr expr scope = .ok (some replacement)) :
    ∃ rule ∈ rules, rule.applies expr scope = true ∧
      rule.onExpr expr scope = .ok (some replacement) := by
  obtain ⟨rule, member, offered⟩ := List.mem_map.mp (firstOffer_cases made)
  obtain ⟨member, applies⟩ := List.mem_filter.mp member
  exact ⟨rule, member, applies, offered⟩

/-- So it is for blocks. -/
theorem onBlock_bundle {block : List Statement} {replacement : BlockReplacement}
    (made : (bundle name description rules).onBlock block scope = .ok (some replacement)) :
    ∃ rule ∈ rules, rule.onBlock block scope = .ok (some replacement) :=
  List.mem_map.mp (firstOffer_cases made)

/-- So it is for fields. -/
theorem onField_bundle {field : FieldDecl} {declared : ClassDecl} {replacement : FieldReplacement}
    (made : (bundle name description rules).onField field declared scope = .ok (some replacement)) :
    ∃ rule ∈ rules, rule.onField field declared scope = .ok (some replacement) :=
  List.mem_map.mp (firstOffer_cases made)

namespace Replaces

variable {exprs : Expr → Scope → Replacement → Prop}
  {blocks : List Statement → Scope → BlockReplacement → Prop}
  {fields : FieldDecl → ClassDecl → Scope → FieldReplacement → Prop}

/-- For a rule for expressions there is nothing to show of blocks and fields. -/
theorem ofExpr {rule : Rule} {replace? : Expr → Scope → Option Replacement}
    (isForExprs : rule.IsForExprs replace?)
    (replaces : ∀ expr scope replacement, rule.applies expr scope = true →
      replace? expr scope = some replacement → exprs expr scope replacement) :
    rule.Replaces exprs blocks fields where
  onExpr {expr scope replacement} applies made :=
    replaces expr scope replacement applies (isForExprs.replaces made)
  onBlock made := (isForExprs.ignores_block made).elim
  onField made := (isForExprs.ignores_field made).elim

/-- What is true of several rules is true of them under one name. -/
theorem bundle (each : ∀ rule ∈ rules, rule.Replaces exprs blocks fields) :
    (Rule.bundle name description rules).Replaces exprs blocks fields where
  onExpr _ made := by
    obtain ⟨rule, member, applies, offered⟩ := onExpr_bundle made
    exact (each rule member).onExpr applies offered
  onBlock made := by
    obtain ⟨rule, member, offered⟩ := onBlock_bundle made
    exact (each rule member).onBlock offered
  onField made := by
    obtain ⟨rule, member, offered⟩ := onField_bundle made
    exact (each rule member).onField offered

/-- In particular of the two rules for what is printed. -/
theorem redirect {settings : Redirect} (console : settings.consoleRule.Replaces exprs blocks fields)
    (trace : settings.stackTraceRule.Replaces exprs blocks fields) :
    settings.rule.Replaces exprs blocks fields :=
  bundle (List.forall_mem_cons.mpr ⟨console, List.forall_mem_singleton.mpr trace⟩)

end Replaces

end Rule

/-! ## Names -/

namespace Configuration

variable {configuration : Configuration} {name : String} {rule : Rule}

/-- The rules and their names. Two of them are only built if the configuration has settings for them. -/
inductive Builds (configuration : Configuration) : String → Rule → Prop where
  | parameterize {settings : Parameterize} (parsed : configuration.parameterize = .ok settings) :
      Builds configuration "parameterize-messages" settings.rule
  | stackTrace : Builds configuration "print-stack-trace" configuration.redirect.stackTraceRule
  | console : Builds configuration "console" configuration.redirect.consoleRule
  | print : Builds configuration "system-print" configuration.redirect.rule
  | migrate : Builds configuration "migrate" configuration.migrate.rule
  | enclosingClass : Builds configuration "enclosing-class" EnclosingClass.rule
  | completeException : Builds configuration "complete-exception" CompleteException.rule
  | changeLevel {settings : ChangeLevel} (given : configuration.changeLevel = some settings) :
      Builds configuration "change-level" settings.rule
  | levelMethod : Builds configuration "level-method" LevelMethod.rule
  | constantMessage : Builds configuration "constant-message" ConstantMessage.rule
  | spreadArray : Builds configuration "array-to-varargs" SpreadArray.rule
  | privateLogger : Builds configuration "private-loggers" PrivateLogger.rule

/-- What is built is one of the rules. -/
theorem builds_of_buildRule (built : configuration.buildRule name = .ok rule) :
    configuration.Builds name rule := by
  unfold buildRule at built
  split at built
  case h_1 =>
    cases parsed : configuration.parameterize with
    | error error =>
      rw [parsed] at built
      cases built
    | ok settings =>
      rw [parsed] at built
      cases built
      exact .parameterize parsed
  case h_8 =>
    split at built
    · rename_i settings given
      cases built
      exact .changeLevel given
    · cases built
  all_goals cases built
  all_goals constructor

/-- Rules are built one by one. -/
theorem mapM_buildRule_cons {names : List String} {rules : List Rule} :
    (name :: names).mapM configuration.buildRule = .ok rules ↔
      ∃ rule rest, configuration.buildRule name = .ok rule ∧
        names.mapM configuration.buildRule = .ok rest ∧ rules = rule :: rest := by
  rw [List.mapM_cons]
  cases configuration.buildRule name with
  | error error => exact ⟨nofun, fun ⟨_, _, known, _⟩ => nomatch known⟩
  | ok rule =>
    cases names.mapM configuration.buildRule with
    | error error => exact ⟨nofun, fun ⟨_, _, _, known, _⟩ => nomatch known⟩
    | ok rest =>
      refine ⟨fun built => ⟨rule, rest, rfl, rfl, (Except.ok.inj built).symm⟩, ?_⟩
      rintro ⟨_, _, ⟨⟩, ⟨⟩, rfl⟩
      rfl

/-- The rules of a configuration are built from the names that it lists. -/
theorem exists_of_mem_buildRules {rules : List Rule} (built : configuration.buildRules = .ok rules)
    (member : rule ∈ rules) :
    ∃ name ∈ configuration.rules, configuration.buildRule name = .ok rule := by
  unfold buildRules at built
  generalize configuration.rules = names at built ⊢
  induction names generalizing rules with
  | nil =>
    cases built
    cases member
  | cons name rest ih =>
    obtain ⟨made, later, first, others, rfl⟩ := mapM_buildRule_cons.mp built
    obtain rfl | inRest := List.mem_cons.mp member
    · exact ⟨name, List.mem_cons_self, first⟩
    · obtain ⟨other, listed, made⟩ := ih inRest others
      exact ⟨other, List.mem_cons_of_mem name listed, made⟩

end Configuration

/-- The rules of an engine are those that its configuration names. -/
theorem Engine.exists_of_mem_ofConfiguration {configuration : Configuration} {engine : Engine}
    (built : ofConfiguration configuration = .ok engine) {rule : Rule} (member : rule ∈ engine.rules) :
    ∃ name ∈ configuration.rules, configuration.buildRule name = .ok rule := by
  unfold ofConfiguration at built
  cases rules : configuration.buildRules with
  | error error =>
    rw [rules] at built
    cases built
  | ok made =>
    rw [rules] at built
    cases built
    exact Configuration.exists_of_mem_buildRules rules (List.mem_mergeSort.mp member)

end LogCalls
