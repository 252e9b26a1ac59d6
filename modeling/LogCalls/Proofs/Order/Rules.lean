import LogCalls.Proofs.Convergence.Rules
import LogCalls.Proofs.Order.Exchange
import LogCalls.Proofs.Order.Redirect

/-! # Which rules may change places

Rules get in each other's way only at nodes that both change, or that one changes after the other. Two
rules that change different calls, and make no calls that the other changes, may change places. -/

namespace LogCalls

variable {expr : Expr} {framework : Framework}

/-- The rule changes only expressions with the first property, and what it makes of them has the
second. -/
def Rule.Turns (rule : Rule) (before after : Expr → Prop) : Prop :=
  ∀ ⦃expr : Expr⦄ ⦃scope : Scope⦄ ⦃replacement : Replacement⦄, rule.applies expr scope = true →
    rule.onExpr expr scope = .ok (some replacement) → before expr ∧ after replacement.expr

/-- What a rule turns may be said more widely. -/
theorem Rule.Turns.imp {rule : Rule} {before after wider larger : Expr → Prop}
    (turns : rule.Turns before after) (widen : ∀ expr, before expr → wider expr)
    (enlarge : ∀ expr, after expr → larger expr) : rule.Turns wider larger := by
  intro expr scope replacement applies made
  obtain ⟨changed, become⟩ := turns applies made
  exact ⟨widen expr changed, enlarge _ become⟩

namespace Pass

variable {α ρ : Type} {kind : Offering α ρ} {first second : Rule} {depth : Nat}

/-! ## Rules for different nodes -/

/-- A change is an answer of the rule. -/
theorem answer_of_changing [DecidableEq α] {made : ρ → α} {node : α} {answer : Offer ρ}
    {replacement : ρ} (changes : changing made node answer = .ok (some replacement)) :
    answer = .ok (some replacement) := by
  cases answer with
  | error reason => cases changes
  | ok reply =>
    obtain ⟨given, -⟩ := Option.filter_eq_some_iff.mp (Except.ok.inj changes)
    rw [given]

/-- The rule changes no nodes of this kind. -/
def Offering.Ignores (kind : Offering α ρ) (rule : Rule) : Prop :=
  ∀ node scope, kind.change? rule node scope = .ok none

/-- Nodes of a kind that one of the rules does not change let them change places. -/
theorem Offering.exchangeable_of_ignores (ignores : kind.Ignores first ∨ kind.Ignores second) :
    kind.Exchangeable first second := by
  obtain ignores | ignores := ignores
  · have never {node : α} {scope : Scope} {replacement : ρ} :
        kind.change? first node scope ≠ .ok (some replacement) := by
      rw [ignores]
      exact nofun
    exact ⟨fun changes => (never changes).elim, fun changes => (never changes).elim⟩
  · exact ⟨fun _ => .inl (ignores _ _), fun _ _ => ignores _ _⟩

/-- A rule leaves what it does not turn. -/
theorem change?_of_not_before {rule : Rule} {before after : Expr → Prop} (answers : Answers rule)
    (turns : rule.Turns before after) (other : ¬ before expr) (scope : Scope) :
    (offeringExprs depth).change? rule expr scope = .ok none := by
  change changing Replacement.expr expr (if rule.applies expr (scope.goDown depth) then
    rule.onExpr expr (scope.goDown depth) else .ok none) = _
  cases applies : rule.applies expr (scope.goDown depth) with
  | false => rfl
  | true =>
    obtain ⟨reply, given⟩ := answers.onExpr expr (scope.goDown depth)
    cases reply with
    | none => rw [given]; rfl
    | some replacement => exact (other (turns applies given).1).elim

/-- Rules that change different expressions may change places, if the second does not change what the
first makes. -/
theorem exchangeable_of_turns {before after domain range : Expr → Prop}
    (former : first.Turns before after) (latter : second.Turns domain range)
    (answers : Answers second) (apart : ∀ expr, before expr → ¬ domain expr)
    (done : ∀ expr, after expr → ¬ domain expr) : (offeringExprs depth).Exchangeable first second := by
  have turned {expr : Expr} {scope : Scope} {replacement : Replacement}
      (changes : (offeringExprs depth).change? first expr scope = .ok (some replacement)) :
      before expr ∧ after replacement.expr := by
    have answer := answer_of_changing changes
    split at answer
    · rename_i applies
      exact former applies answer
    · cases answer
  exact ⟨fun changes => .inl (change?_of_not_before answers latter (apart _ (turned changes).1) _),
    fun changes => change?_of_not_before answers latter (done _ (turned changes).2)⟩

/-! ## Rules that agree -/

/-- What the rule changes, it changes as given. -/
def Offering.Selects (kind : Offering α ρ) (rule : Rule) (common : α → Scope → Option ρ) : Prop :=
  ∀ node scope, kind.change? rule node scope = .ok none ∨
    kind.change? rule node scope = .ok (common node scope)

/-- Rules that agree on what they change may change places, if nothing is changed twice. -/
theorem Offering.exchangeable_of_selects {common : α → Scope → Option ρ}
    (former : kind.Selects first common) (latter : kind.Selects second common)
    (idle : ∀ {node scope replacement}, common node scope = some replacement →
      ∀ later, common (kind.made replacement) later = none) : kind.Exchangeable first second := by
  have agreed {node : α} {scope : Scope} {replacement : ρ}
      (changes : kind.change? first node scope = .ok (some replacement)) :
      common node scope = some replacement := by
    obtain keeps | same := former node scope
    · rw [keeps] at changes
      cases changes
    · exact Except.ok.inj (same.symm.trans changes)
  refine ⟨fun {node scope _} changes => ?_, fun {_ _ replacement} changes later => ?_⟩
  · rw [← agreed changes]
    exact latter node scope
  · obtain keeps | same := latter (kind.made replacement) later
    · exact keeps
    · rw [same, idle (agreed changes)]

end Pass

/-! ## What the rules change -/

/-- The call asks for a logger. -/
def Expr.AsksLogger (expr : Expr) : Prop := Redirect.callsNamed ["getLogger", "getLog"] expr = true

/-- The call prints, by the name of its method. -/
def Expr.Prints (expr : Expr) : Prop :=
  Redirect.callsNamed ["println", "print", "printStackTrace"] expr = true

/-- The call takes a `{}` template. -/
def Expr.TakesTemplate (expr : Expr) : Prop :=
  ∃ framework, expr.Logs framework ∧ framework.templateStyle = .anonymous

/-- A log call asks for no logger. -/
theorem Expr.Logs.not_asksLogger (logs : expr.Logs framework) : ¬ expr.AsksLogger := by
  rw [AsksLogger, logs.not_callsNamed (by decide)]
  exact Bool.false_ne_true

/-- A log call does not print. -/
theorem Expr.Logs.not_prints (logs : expr.Logs framework) : ¬ expr.Prints := by
  rw [Prints, logs.not_callsNamed (by decide)]
  exact Bool.false_ne_true

/-- The platform has no `{}` templates. -/
theorem Expr.Logs.not_takesTemplate (logs : expr.Logs .jul) : ¬ expr.TakesTemplate := by
  rintro ⟨framework, ⟨shape, resolved, -⟩, style⟩
  obtain ⟨_, other, -⟩ := logs
  cases resolved.symm.trans other
  cases style

/-- A print asks for no logger. -/
theorem Expr.Prints.not_asksLogger (prints : expr.Prints) : ¬ expr.AsksLogger := by
  intro asks
  unfold Prints AsksLogger Redirect.callsNamed at *
  split at prints
  · have apart : ∀ name ∈ ["println", "print", "printStackTrace"], name ∉ ["getLogger", "getLog"] := by
      decide
    exact apart _ (List.contains_iff_mem.mp prints) (List.contains_iff_mem.mp asks)
  · cases prints

/-- A call with a level and a message calls the logger of the platform. -/
theorem LevelMethod.logs_of_isLevelCall (levels : isLevelCall expr = true) : expr.Logs .jul := by
  unfold isLevelCall at levels
  split at levels
  · rename_i select level operand resolved
    have found : Signature.find? resolved.declaringType "log" = some ⟨some .jul, .levelArgument⟩ := by
      rw [beq_iff_eq.mp levels]
      decide
    exact ⟨.levelArgument, resolveSignature?_of_find? found, nofun⟩
  · cases levels

/-- The level's own method is one of the logger of the platform. -/
theorem LevelMethod.turns : rule.Turns (isLevelCall · = true) (·.Logs .jul) := by
  intro expr scope replacement levels made
  refine ⟨levels, ?_⟩
  obtain ⟨select, name, level, operand, resolved, method, _, rfl, known, rfl⟩ :=
    replace?_cases (Except.ok.inj made)
  have declared : resolved.declaringType = Framework.jul.loggerType := by
    change isLevelCall _ = true at levels
    unfold isLevelCall at levels
    split at levels
    · rename_i same
      cases same
      exact beq_iff_eq.mp levels
    · cases levels
  obtain ⟨constant, -, entry⟩ := Option.bind_eq_some_iff.mp known
  have logged : ∀ entry ∈ methods, ∃ severity ∈ Severity.all,
      Signature.find? Framework.jul.loggerType entry.2 = some ⟨some .jul, .leveled severity⟩ := by
    decide
  obtain ⟨front, back, table, -⟩ := List.lookup_eq_some_iff.mp entry
  obtain ⟨severity, -, found⟩ := logged (constant, method) (by
    rw [table]
    exact List.mem_append_right front List.mem_cons_self)
  rw [← declared] at found
  exact ⟨.leveled severity, resolveSignature?_of_find? found, nofun⟩

/-- Logger requests stay logger requests. -/
theorem EnclosingClass.turns : rule.Turns Expr.AsksLogger Expr.AsksLogger := by
  intro expr scope replacement _ made
  obtain ⟨factory, select, name, argument, rfl, resolved, -, -, rfl⟩ :=
    replace?_cases (Except.ok.inj made)
  obtain ⟨fqn, found⟩ := resolveSignature?_eq_some resolved
  have named : name ∈ ["getLogger", "getLog"] := by
    simpa using (Signature.find?_factory_iff found).mp rfl
  have accessor : Redirect.callsNamed ["getLogger", "getLog"]
      (.methodCall select name [argument] (some factory.method)) = true :=
    List.contains_iff_mem.mpr named
  exact ⟨accessor, accessor⟩

/-- A call that keeps its method takes a template as before. -/
theorem Expr.takesTemplate_methodCall {select : Option Expr} {name : String}
    {method : ResolvedMethod} {shape : CallShape}
    (resolved : resolveSignature? select name method = some ⟨some framework, shape⟩)
    (style : framework.templateStyle = .anonymous) (logs : shape ≠ .factory) (arguments : List Expr) :
    (Expr.methodCall select name arguments (some method)).TakesTemplate :=
  ⟨framework, ⟨shape, resolved, logs⟩, style⟩

/-- A constant message stays a template call. -/
theorem ConstantMessage.turns : rule.Turns Expr.TakesTemplate Expr.TakesTemplate := by
  intro expr scope replacement _ made
  obtain ⟨select, name, arguments, method, framework, severity, marker, operand, trailing, replaced,
    rfl, resolved, style, -, -, rfl⟩ := replace?_cases (Except.ok.inj made)
  exact ⟨Expr.takesTemplate_methodCall resolved style nofun _,
    Expr.takesTemplate_methodCall resolved style nofun _⟩

/-- So does a call with an exception. -/
theorem CompleteException.turns : rule.Turns Expr.TakesTemplate Expr.TakesTemplate := by
  intro expr scope replacement _ made
  obtain ⟨select, name, arguments, method, framework, severity, marker, rest, completed, rfl, resolved,
    style, -, -, rfl⟩ := replace?_cases (Except.ok.inj made)
  exact ⟨Expr.takesTemplate_methodCall resolved style nofun _,
    Expr.takesTemplate_methodCall resolved style nofun _⟩

/-- So does a call with an array. -/
theorem SpreadArray.turns : rule.Turns Expr.TakesTemplate Expr.TakesTemplate := by
  intro expr scope replacement _ made
  obtain ⟨select, name, leading, element, elements, found, index, rfl, -, stands, -, -, rfl⟩ :=
    replace?_cases (Except.ok.inj made)
  obtain ⟨method, framework, shape, offset, rfl, resolved, style, known, -⟩ :=
    messageIndex?_cases stands
  have logs : shape ≠ .factory := by
    rintro rfl
    cases known
  exact ⟨Expr.takesTemplate_methodCall resolved style logs _,
    Expr.takesTemplate_methodCall resolved style logs _⟩

/-- Parameterized calls stay log calls. -/
theorem Parameterize.turns (settings : Parameterize) :
    settings.rule.Turns (fun expr => ∃ framework, expr.Logs framework)
      (fun expr => ∃ framework, expr.Logs framework) := by
  intro expr scope replacement _ made
  obtain ⟨call, framework, recognized, logs, rfl⟩ := replace?_cases (Except.ok.inj made)
  obtain ⟨name, level, operand, rest, found, shape, rfl, resolved, place, -⟩ :=
    LogCall.recognize?_logs recognized logs
  have notFactory : shape ≠ .factory := by
    obtain ⟨rfl, -⟩ | ⟨rfl, -⟩ := place <;> exact nofun
  refine ⟨⟨framework, shape, resolved, notFactory⟩, framework, ?_⟩
  obtain ⟨name, arguments, whole, written⟩ := LogEvent.written_emit
    { call.toLogEvent with message := settings.printed call.message } framework {} call.receiver
  rw [whole]
  exact written.logs (SeverityPolicy.supports_resolve ..) _

/-- Changing levels touches no logger request. -/
theorem ChangeLevel.turns (settings : ChangeLevel) :
    settings.rule.Turns (¬ ·.AsksLogger) (¬ ·.AsksLogger) := by
  intro expr scope replacement _ made
  obtain ⟨select, arguments, method, framework, rfl, resolved, -, rfl⟩ :=
    replace?_cases (Except.ok.inj made)
  have named (severity : Severity) : framework.methodFor severity ∉ ["getLogger", "getLog"] := by
    cases framework <;> cases severity <;> decide
  exact ⟨fun asks => named _ (List.contains_iff_mem.mp asks),
    fun asks => named _ (List.contains_iff_mem.mp asks)⟩

/-! ## Redirected calls -/

namespace Redirect

variable {replacement : Replacement} (settings : Redirect)

/-- What becomes of a console write or of a printed stack trace. -/
def redirected? (expr : Expr) (scope : Scope) : Option Replacement :=
  if callsNamed ["println", "print"] expr then settings.replaceConsole? expr scope
  else if callsNamed ["printStackTrace"] expr then settings.replaceTrace? expr scope
  else none

variable {settings}

/-- What reports an event is no call with a level and a message only. -/
theorem isLevelCall_emit? {event : LogEvent} {scope : ClassScope}
    (emitted : settings.emit? event scope = some replacement) :
    LevelMethod.isLevelCall replacement.expr = false := by
  obtain ⟨choice, -, whole, -⟩ := emit?_cases emitted
  obtain ⟨name, arguments, call, written⟩ :=
    event.written_emit settings.target settings.severityPolicy choice.receiver
  rw [whole, call]
  have named (severity : Severity) : settings.target.methodFor severity ≠ "log" := by
    cases settings.target <;> cases severity <;> decide
  have other {name : String} (differs : name ≠ "log") (arguments : List Expr) :
      LevelMethod.isLevelCall (.call choice.receiver name arguments
        (.onInstance settings.target.loggerType name)) = false := by
    unfold LevelMethod.isLevelCall
    split
    · rename_i same
      cases same
      exact absurd rfl differs
    · rfl
  cases written with
  | template => exact other (named _) _
  | joined => exact other (named _) _
  | whole => exact other (named _) _
  | attached => rfl
  | indexed => rfl

/-- A redirected call printed, and is now a call of the target's logger, but not one with a level and a
message only. -/
theorem redirected?_cases {scope : Scope}
    (made : settings.redirected? expr scope = some replacement) :
    expr.Prints ∧ replacement.expr.Logs settings.target ∧
      LevelMethod.isLevelCall replacement.expr = false := by
  have prints {names : List String} (named : callsNamed names expr = true)
      (known : names ⊆ ["println", "print", "printStackTrace"]) : expr.Prints := by
    unfold callsNamed at named
    split at named
    · exact List.contains_iff_mem.mpr (known (List.contains_iff_mem.mp named))
    · cases named
  unfold redirected? at made
  split at made
  · rename_i named
    obtain ⟨call, -, -, emitted⟩ := replaceConsole?_cases made
    exact ⟨prints named (by decide), logs_emit? emitted, isLevelCall_emit? emitted⟩
  · split at made
    · rename_i named
      obtain ⟨call, -, -, emitted⟩ := replaceTrace?_cases made
      exact ⟨prints named (by decide), logs_emit? emitted, isLevelCall_emit? emitted⟩
    · cases made

/-- What was redirected is not redirected again. -/
theorem redirected?_idle {scope : Scope}
    (made : settings.redirected? expr scope = some replacement) (later : Scope) :
    settings.redirected? replacement.expr later = none := by
  obtain ⟨-, logs, -⟩ := redirected?_cases made
  rw [redirected?, logs.not_callsNamed (by decide), logs.not_callsNamed (by decide)]
  rfl

/-- A rule that redirects some of what is printed, and merges pairs of statements or leaves them. -/
structure Redirects (settings : Redirect) (rule : Rule) : Prop where
  onExpr {expr : Expr} {scope : Scope} : rule.applies expr scope = true →
    rule.onExpr expr scope = .ok (settings.redirected? expr scope)
  onBlock (block : List Statement) (scope : Scope) : rule.onBlock block scope = .ok none ∨
    rule.onBlock block scope = .ok (settings.replaceBlock? block scope)

/-- A print is redirected by the console part. -/
theorem redirected?_console (named : callsNamed ["println", "print"] expr = true)
    (scope : Scope) : settings.redirected? expr scope = settings.replaceConsole? expr scope := by
  rw [redirected?, if_pos named]

/-- A stack trace is no print. -/
theorem not_callsNamed_console (named : callsNamed ["printStackTrace"] expr = true) :
    callsNamed ["println", "print"] expr = false := by
  unfold callsNamed at *
  split at named
  · cases List.mem_singleton.mp (List.contains_iff_mem.mp named)
    rfl
  · rfl

/-- A stack trace is redirected by its own part. -/
theorem redirected?_trace (named : callsNamed ["printStackTrace"] expr = true)
    (scope : Scope) : settings.redirected? expr scope = settings.replaceTrace? expr scope := by
  rw [redirected?, not_callsNamed_console named, if_neg Bool.false_ne_true, if_pos named]

/-- The console rule redirects prints. -/
theorem redirects_consoleRule (settings : Redirect) : settings.Redirects settings.consoleRule where
  onExpr named := congrArg Except.ok (redirected?_console named _).symm
  onBlock _ _ := .inr rfl

/-- The stack trace rule redirects traces. -/
theorem redirects_stackTraceRule (settings : Redirect) :
    settings.Redirects settings.stackTraceRule where
  onExpr named := congrArg Except.ok (redirected?_trace named _).symm
  onBlock _ _ := .inl rfl

/-- The rule of both redirects either. -/
theorem redirects_rule (settings : Redirect) : settings.Redirects settings.rule where
  onExpr {expr scope} named := by
    have alone (reply : Option Replacement) : Rule.firstOffer [.ok reply] = .ok reply := by
      cases reply <;> rfl
    have either : callsNamed ["println", "print"] expr = true ∨
        callsNamed ["printStackTrace"] expr = true := by
      simpa [rule, Rule.bundle, consoleRule, stackTraceRule] using named
    dsimp only [rule, Rule.bundle]
    -- A call has one name, so only one of the two rules has anything to say.
    obtain console | trace := either
    · have other : callsNamed ["printStackTrace"] expr = false := by
        refine Bool.eq_false_iff.mpr fun trace => ?_
        rw [not_callsNamed_console trace] at console
        cases console
      rw [redirected?_console console]
      simp [consoleRule, stackTraceRule, console, other, alone]
    · rw [redirected?_trace trace]
      simp [consoleRule, stackTraceRule, not_callsNamed_console trace, trace, alone]
  onBlock block scope := by
    refine .inr ?_
    dsimp only [rule, Rule.bundle]
    cases merged : settings.replaceBlock? block scope <;>
      simp [consoleRule, stackTraceRule, merged, Rule.firstOffer]

/-- What is printed is redirected, and nothing else. -/
theorem Redirects.turns {rule : Rule} (redirects : settings.Redirects rule) :
    rule.Turns Expr.Prints (fun expr => expr.Logs settings.target ∧
      LevelMethod.isLevelCall expr = false) := by
  intro expr scope replacement applies made
  rw [redirects.onExpr applies] at made
  exact redirected?_cases (Except.ok.inj made)

/-- Rules that redirect what is printed may change places. -/
theorem Redirects.exchangeable {first second : Rule} (former : settings.Redirects first)
    (latter : settings.Redirects second) (depth : Nat) :
    (Pass.offeringExprs depth).Exchangeable first second ∧
      (Pass.offeringBlocks depth).Exchangeable first second := by
  have exprs {rule : Rule} (redirects : settings.Redirects rule) :
      (Pass.offeringExprs depth).Selects rule (fun expr scope =>
        (settings.redirected? expr scope).filter (·.expr ≠ expr)) := by
    intro expr scope
    by_cases applies : rule.applies expr (scope.goDown depth) = true
    · exact .inr (congrArg (Pass.changing Replacement.expr expr)
        ((if_pos applies).trans (redirects.onExpr applies)))
    · exact .inl (congrArg (Pass.changing Replacement.expr expr) (if_neg applies))
  have blocks {rule : Rule} (redirects : settings.Redirects rule) :
      (Pass.offeringBlocks depth).Selects rule (fun block scope =>
        (settings.replaceBlock? block scope).filter (·.statements ≠ block)) := by
    intro block scope
    obtain keeps | same := redirects.onBlock block (scope.goDown depth)
    · exact .inl (congrArg (Pass.changing BlockReplacement.statements block) keeps)
    · exact .inr (congrArg (Pass.changing BlockReplacement.statements block) same)
  refine ⟨Pass.Offering.exchangeable_of_selects (exprs former) (exprs latter) ?_,
    Pass.Offering.exchangeable_of_selects (blocks former) (blocks latter) ?_⟩
  · intro expr scope replacement made later
    obtain ⟨given, -⟩ := Option.filter_eq_some_iff.mp made
    exact congrArg (Option.filter _) (redirected?_idle given later)
  · intro block scope replacement made later
    obtain ⟨given, -⟩ := Option.filter_eq_some_iff.mp made
    exact congrArg (Option.filter _) (replaceBlock?_idle given later)

end Redirect

/-! ## Rules of a configuration -/

namespace Configuration

variable {configuration : Configuration} {name : String} {rule : Rule}

/-- The rules of a configuration do not fail. -/
theorem answers_of_buildRule (built : configuration.buildRule name = .ok rule) :
    Pass.Answers rule :=
  (@suits_of_buildRule { configuration with rules := [name] } name rule
    (List.mem_singleton_self name) built "").answers

/-- The rules for what is printed. -/
def printRules : List String := ["print-stack-trace", "console", "system-print"]

/-- The rules for the arguments of calls that take a `{}` template. -/
def argumentRules : List String := ["complete-exception", "constant-message", "array-to-varargs"]

/-- The rules that share no call with others: one has its own priority, one is about calls that ask for
loggers, and one about fields. -/
def detachedRules : List String := ["migrate", "enclosing-class", "private-loggers"]

/-- The first rule has nothing to do with what the second one changes and makes, or the same. -/
def separate (first second : String) : Bool :=
  detachedRules.contains first || (printRules.contains first && printRules.contains second) ||
    (first == "level-method" && (printRules ++ argumentRules).contains second)

/-- The rules may change places, and the outcome is the same with its number of passes. Pairs that lead to
the same unit in another number of passes (`change-level` with `level-method` or with the rules for
prints) are therefore not among them. -/
def independent (first second : String) : Bool := separate first second || separate second first

/-- Loggers are migrated before anything else. -/
theorem Builds.priority (builds : configuration.Builds name rule) :
    rule.priority = if name = "migrate" then 200 else 100 := by
  cases builds <;> rfl

/-- Only two rules are about fields. -/
theorem Builds.ignores_fields (builds : configuration.Builds name rule) (notMoved : name ≠ "migrate")
    (notPrivate : name ≠ "private-loggers") (around : FieldDecl → ClassDecl) :
    (Pass.offeringFields around).Ignores rule := by
  cases builds with
  | migrate => exact (notMoved rfl).elim
  | privateLogger => exact (notPrivate rfl).elim
  | _ => exact fun _ _ => rfl

/-- The print rules redirect. -/
theorem Builds.redirects (builds : configuration.Builds name rule) (prints : name ∈ printRules) :
    configuration.redirect.Redirects rule := by
  cases builds with
  | stackTrace => exact Redirect.redirects_stackTraceRule _
  | console => exact Redirect.redirects_consoleRule _
  | print => exact Redirect.redirects_rule _
  | _ => exact absurd prints (by decide)

/-- The argument rules turn template calls. -/
theorem Builds.turns_arguments (builds : configuration.Builds name rule)
    (argues : name ∈ argumentRules) : rule.Turns Expr.TakesTemplate Expr.TakesTemplate := by
  cases builds with
  | completeException => exact CompleteException.turns
  | constantMessage => exact ConstantMessage.turns
  | spreadArray => exact SpreadArray.turns
  | _ => exact absurd argues (by decide)

/-- Calls that ask for loggers are left to two rules. -/
theorem Builds.turns_others (builds : configuration.Builds name rule) (notMoved : name ≠ "migrate")
    (notNamed : name ≠ "enclosing-class") : rule.Turns (¬ ·.AsksLogger) (¬ ·.AsksLogger) := by
  by_cases prints : name ∈ printRules
  · exact (builds.redirects prints).turns.imp (fun _ => Expr.Prints.not_asksLogger)
      fun _ made => made.1.not_asksLogger
  by_cases argues : name ∈ argumentRules
  · exact (builds.turns_arguments argues).imp (fun _ ⟨_, logs, _⟩ => logs.not_asksLogger)
      fun _ ⟨_, logs, _⟩ => logs.not_asksLogger
  cases builds with
  | @parameterize settings parsed =>
    exact settings.turns.imp (fun _ ⟨_, logs⟩ => logs.not_asksLogger)
      fun _ ⟨_, logs⟩ => logs.not_asksLogger
  | @changeLevel settings given => exact settings.turns
  | levelMethod =>
    exact LevelMethod.turns.imp
      (fun _ levels => (LevelMethod.logs_of_isLevelCall levels).not_asksLogger)
      fun _ logs => logs.not_asksLogger
  | privateLogger => exact fun _ _ _ applies => (Bool.false_ne_true applies).elim
  | migrate => exact (notMoved rfl).elim
  | enclosingClass => exact (notNamed rfl).elim
  | stackTrace | console | print => exact (prints (by decide)).elim
  | completeException | constantMessage | spreadArray => exact (argues (by decide)).elim

/-! ## Independent rules -/

variable {first second : String} {former latter : Rule}

/-- Rules may change places if they do so at expressions, and each block and each field is left alone by
one of them. -/
theorem exchangeable_of_exprs
    (exprs : ∀ depth, (Pass.offeringExprs depth).Exchangeable former latter ∧
      (Pass.offeringExprs depth).Exchangeable latter former)
    (blocks : ∀ depth, (Pass.offeringBlocks depth).Ignores former)
    (fields : (∀ around, (Pass.offeringFields around).Ignores former) ∨
      ∀ around, (Pass.offeringFields around).Ignores latter) :
    former.Exchangeable latter ∧ latter.Exchangeable former :=
  ⟨⟨fun depth => (exprs depth).1, fun depth =>
      Pass.Offering.exchangeable_of_ignores (.inl (blocks depth)), fun around =>
      Pass.Offering.exchangeable_of_ignores (fields.imp (· around) (· around))⟩,
    ⟨fun depth => (exprs depth).2, fun depth =>
      Pass.Offering.exchangeable_of_ignores (.inr (blocks depth)), fun around =>
      Pass.Offering.exchangeable_of_ignores (fields.symm.imp (· around) (· around))⟩⟩

/-- The calls that ask for loggers are changed by one of the rules only. -/
theorem exchangeable_enclosingClass (built : configuration.buildRule name = .ok rule)
    (notMoved : name ≠ "migrate") (notNamed : name ≠ "enclosing-class") :
    EnclosingClass.rule.Exchangeable rule ∧ rule.Exchangeable EnclosingClass.rule := by
  have others := (builds_of_buildRule built).turns_others notMoved notNamed
  have answers : Pass.Answers EnclosingClass.rule :=
    @answers_of_buildRule configuration "enclosing-class" _ rfl
  refine exchangeable_of_exprs (fun depth => ⟨?_, ?_⟩) (fun _ _ _ => rfl) (.inl fun _ _ _ => rfl)
  · exact Pass.exchangeable_of_turns EnclosingClass.turns others (answers_of_buildRule built)
      (fun _ asks other => other asks) fun _ asks other => other asks
  · exact Pass.exchangeable_of_turns others EnclosingClass.turns answers (fun _ => id) fun _ => id

/-- No other rule of the same priority changes fields. -/
theorem exchangeable_privateLogger (built : configuration.buildRule name = .ok rule)
    (notMoved : name ≠ "migrate") (notPrivate : name ≠ "private-loggers") :
    PrivateLogger.rule.Exchangeable rule ∧ rule.Exchangeable PrivateLogger.rule := by
  have ignores (depth : Nat) : (Pass.offeringExprs depth).Ignores PrivateLogger.rule :=
    fun _ _ => rfl
  exact exchangeable_of_exprs
    (fun depth => ⟨Pass.Offering.exchangeable_of_ignores (.inl (ignores depth)),
      Pass.Offering.exchangeable_of_ignores (.inr (ignores depth))⟩) (fun _ _ _ => rfl)
    (.inr ((builds_of_buildRule built).ignores_fields notMoved notPrivate))

/-- Calls of the platform's logger with a level do not print and take no `{}` template. -/
theorem exchangeable_levelMethod (built : configuration.buildRule name = .ok rule)
    (shared : name ∈ printRules ++ argumentRules) :
    LevelMethod.rule.Exchangeable rule ∧ rule.Exchangeable LevelMethod.rule := by
  have builds := builds_of_buildRule built
  have answers : Pass.Answers rule := answers_of_buildRule built
  have own : Pass.Answers LevelMethod.rule :=
    @answers_of_buildRule configuration "level-method" _ rfl
  refine exchangeable_of_exprs (fun depth => ?_) (fun _ _ _ => rfl) (.inl fun _ _ _ => rfl)
  obtain prints | argues := List.mem_append.mp shared
  · have turns := (builds.redirects prints).turns
    refine ⟨Pass.exchangeable_of_turns LevelMethod.turns turns answers ?_ ?_,
      Pass.exchangeable_of_turns turns LevelMethod.turns own ?_ ?_⟩
    · exact fun _ levels => (LevelMethod.logs_of_isLevelCall levels).not_prints
    · exact fun _ logs => logs.not_prints
    · exact fun _ prints levels => (LevelMethod.logs_of_isLevelCall levels).not_prints prints
    · exact fun _ made => Bool.eq_false_iff.mp made.2
  · have turns := builds.turns_arguments argues
    refine ⟨Pass.exchangeable_of_turns LevelMethod.turns turns answers ?_ ?_,
      Pass.exchangeable_of_turns turns LevelMethod.turns own ?_ ?_⟩
    · exact fun _ levels => (LevelMethod.logs_of_isLevelCall levels).not_takesTemplate
    · exact fun _ logs => logs.not_takesTemplate
    · exact fun _ takes levels => (LevelMethod.logs_of_isLevelCall levels).not_takesTemplate takes
    · exact fun _ takes levels => (LevelMethod.logs_of_isLevelCall levels).not_takesTemplate takes

/-- Separate rules of one priority exchange. -/
theorem exchangeable_of_separate (separate : separate first second = true) (differ : first ≠ second)
    (built : configuration.buildRule first = .ok former)
    (other : configuration.buildRule second = .ok latter) :
    former.priority ≠ latter.priority ∨
      former.Exchangeable latter ∧ latter.Exchangeable former := by
  have builds := builds_of_buildRule built
  have others := builds_of_buildRule other
  -- Migration has a priority of its own, so no list changes its place.
  by_cases moves : first = "migrate" ∨ second = "migrate"
  · refine .inl ?_
    rw [builds.priority, others.priority]
    obtain rfl | rfl := moves
    · rw [if_pos rfl, if_neg differ.symm]
      decide
    · rw [if_pos rfl, if_neg differ]
      decide
  refine .inr ?_
  obtain ⟨notMoved, otherNotMoved⟩ := not_or.mp moves
  simp only [Configuration.separate, detachedRules, List.contains_eq_mem, Bool.or_eq_true, Bool.and_eq_true,
    decide_eq_true_eq, beq_iff_eq, List.mem_cons, List.not_mem_nil, or_false] at separate
  obtain ((moves | rfl | rfl) | ⟨prints, alsoPrints⟩) | ⟨rfl, shared⟩ := separate
  · exact (notMoved moves).elim
  · cases built
    exact exchangeable_enclosingClass other otherNotMoved differ.symm
  · cases built
    exact exchangeable_privateLogger other otherNotMoved differ.symm
  · have fields := builds.ignores_fields notMoved (by
      rintro rfl
      exact absurd prints (by decide))
    have forth (depth : Nat) := (builds.redirects prints).exchangeable (others.redirects alsoPrints) depth
    have back (depth : Nat) := (others.redirects alsoPrints).exchangeable (builds.redirects prints) depth
    exact ⟨⟨fun depth => (forth depth).1, fun depth => (forth depth).2, fun around =>
        Pass.Offering.exchangeable_of_ignores (.inl (fields around))⟩,
      ⟨fun depth => (back depth).1, fun depth => (back depth).2, fun around =>
        Pass.Offering.exchangeable_of_ignores (.inr (fields around))⟩⟩
  · cases built
    exact exchangeable_levelMethod other shared

/-- Rules that are independent of each other may change places, unless their priorities keep them in
order. -/
theorem exchangeable_of_independent (independent : independent first second = true)
    (differ : first ≠ second) (built : configuration.buildRule first = .ok former)
    (other : configuration.buildRule second = .ok latter) :
    former.priority ≠ latter.priority ∨
      former.Exchangeable latter ∧ latter.Exchangeable former := by
  obtain separate | separate := Bool.or_eq_true_iff.mp independent
  · exact exchangeable_of_separate separate differ built other
  · exact (exchangeable_of_separate separate differ.symm other built).imp Ne.symm And.symm

end Configuration

end LogCalls
