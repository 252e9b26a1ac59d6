import LogCalls.Proofs.Engine.Frame
import LogCalls.Proofs.Order.Rules

/-! # Bundles and their parts

A bundle makes one offer where its parts, listed one after the other, make one each. That is the same if
no node is for both parts, and if the second has nothing to say about what the first makes. Then an engine
does not tell the bundle from its parts, wherever they stand among other rules. -/

namespace LogCalls

/-! ## Lists of rules -/

/-- The second list is the first with an entry replaced by two others. -/
def Unbundled {α : Type} (whole first second : α) (list other : List α) : Prop :=
  ∃ front back, list = front ++ whole :: back ∧ other = front ++ first :: second :: back

/-- Lists stay unbundled under a common head. -/
theorem Unbundled.cons {α : Type} {whole first second : α} {list other : List α}
    (unbundled : Unbundled whole first second list other) (entry : α) :
    Unbundled whole first second (entry :: list) (entry :: other) := by
  obtain ⟨front, back, rfl, rfl⟩ := unbundled
  exact ⟨entry :: front, back, rfl, rfl⟩

namespace Rule

variable {whole first second : Rule}

/-- Two equals of a rule find the place that the rule would find. -/
theorem unbundled_orderedInsert_self (former : first.priority = whole.priority)
    (latter : second.priority = whole.priority) (rules : List Rule) :
    Unbundled whole first second (rules.orderedInsert Precedes whole)
      ((rules.orderedInsert Precedes second).orderedInsert Precedes first) := by
  have together : Precedes first second := Nat.le_of_eq (latter.trans former.symm)
  induction rules with
  | nil =>
    simp only [List.orderedInsert_nil, List.orderedInsert_cons, if_pos together]
    exact ⟨[], [], rfl, rfl⟩
  | cons next rest ih =>
    have sameFirst : Precedes first next ↔ Precedes whole next := by
      rw [Precedes, Precedes, former]
    have sameSecond : Precedes second next ↔ Precedes whole next := by
      rw [Precedes, Precedes, latter]
    by_cases precedes : Precedes whole next
    · simp only [List.orderedInsert_cons, sameSecond, if_pos precedes, if_pos together]
      exact ⟨[], next :: rest, rfl, rfl⟩
    · simp only [List.orderedInsert_cons, sameFirst, sameSecond, if_neg precedes]
      exact ih.cons next

/-- A rule finds the same place before or behind a rule and its equals. -/
theorem unbundled_orderedInsert (former : first.priority = whole.priority)
    (latter : second.priority = whole.priority) {rules others : List Rule}
    (unbundled : Unbundled whole first second rules others) (rule : Rule) :
    Unbundled whole first second (rules.orderedInsert Precedes rule)
      (others.orderedInsert Precedes rule) := by
  obtain ⟨front, back, rfl, rfl⟩ := unbundled
  have sameFirst : Precedes rule first ↔ Precedes rule whole := by rw [Precedes, Precedes, former]
  have sameSecond : Precedes rule second ↔ Precedes rule whole := by rw [Precedes, Precedes, latter]
  induction front with
  | nil =>
    simp only [List.nil_append, List.orderedInsert_cons, sameFirst, sameSecond]
    by_cases precedes : Precedes rule whole
    · simp only [if_pos precedes]
      exact ⟨[rule], back, rfl, rfl⟩
    · simp only [if_neg precedes]
      exact ⟨[], back.orderedInsert Precedes rule, rfl, rfl⟩
  | cons next rest ih =>
    simp only [List.cons_append, List.orderedInsert_cons]
    by_cases precedes : Precedes rule next
    · simp only [if_pos precedes]
      exact ⟨rule :: next :: rest, back, rfl, rfl⟩
    · simp only [if_neg precedes]
      exact ih.cons next

/-- **Equals stay together.** Where a rule is replaced by two of its priority, the rules in the order in
which they run differ in the same way. -/
theorem unbundled_byPriority (former : first.priority = whole.priority)
    (latter : second.priority = whole.priority) {rules others : List Rule}
    (unbundled : Unbundled whole first second rules others) :
    Unbundled whole first second (byPriority rules) (byPriority others) := by
  obtain ⟨front, back, rfl, rfl⟩ := unbundled
  induction front with
  | nil =>
    simp only [List.nil_append, byPriority_cons]
    exact unbundled_orderedInsert_self former latter (byPriority back)
  | cons next rest ih =>
    simp only [List.cons_append, byPriority_cons]
    exact unbundled_orderedInsert former latter ih next

/-! ## Offers -/

/-- No offer gives way to the next one. -/
theorem firstOffer_pair_none_left {ρ : Type} (offer : Offer ρ) :
    firstOffer [.ok none, offer] = offer := by
  rcases offer with reason | _ | replacement <;> rfl

/-- No offer adds nothing to the first. -/
theorem firstOffer_pair_none_right {ρ : Type} (offer : Offer ρ) :
    firstOffer [offer, .ok none] = offer := by
  rcases offer with reason | _ | replacement <;> rfl

/-- A single offer is the first. -/
theorem firstOffer_singleton {ρ : Type} (offer : Offer ρ) : firstOffer [offer] = offer := by
  rcases offer with reason | _ | replacement <;> rfl

/-- The first replacement of two is that of the first offer, or else that of the second. -/
theorem firstOffer_pair_cases {ρ : Type} {former latter : Offer ρ} {reply : Option ρ}
    (given : firstOffer [former, latter] = .ok reply) :
    (former = .ok none ∧ latter = .ok reply) ∨
      ∃ replacement, former = .ok (some replacement) ∧ reply = some replacement := by
  rcases former with reason | _ | replacement
  · cases given
  · rw [firstOffer_pair_none_left] at given
    exact .inl ⟨rfl, given⟩
  · cases given
    exact .inr ⟨replacement, rfl, rfl⟩

end Rule

namespace Pass

variable {α ρ : Type}

/-- A rule changes a node as the first of two others does, or else as the second does, and the second
leaves alone what the first has made. -/
structure Offering.Joins (kind : Offering α ρ) (whole first second : Rule) : Prop where
  change?_eq (node : α) (scope : Scope) : kind.change? whole node scope =
    Rule.firstOffer [kind.change? first node scope, kind.change? second node scope]
  idle {node : α} {scope : Scope} {replacement : ρ} :
    kind.change? first node scope = .ok (some replacement) →
    ∀ later, kind.change? second (kind.made replacement) later = .ok none

/-- An offer to such a rule does what offers to the two others do. -/
theorem Offering.Lawful.follows_joins {kind : Offering α ρ} (lawful : kind.Lawful)
    {whole first second : Rule} (joins : kind.Joins whole first second) (node : α) :
    Follows (fun _ => True) Progress.uncounted (kind.offer node whole)
      (kind.offer node first >>= fun node => kind.offer node second) := by
  intro progress visited after run _
  refine ⟨trivial, fun start same => ?_⟩
  have sameScope := Progress.scope_eq_of_uncounted_eq same
  obtain ⟨keeps, rfl, toAfter⟩ | ⟨replacement, changes, rfl, toAfter⟩ := lawful.run_ok run
  · rw [sameScope, joins.change?_eq] at keeps
    obtain ⟨former, latter⟩ | ⟨_, _, made⟩ := Rule.firstOffer_pair_cases keeps
    · obtain ⟨last, runBoth, toLast⟩ := lawful.run_neither former latter
      refine ⟨last, runBoth, ?_⟩
      rw [← toAfter, same, toLast]
    · cases made
  · rw [sameScope, joins.change?_eq] at changes
    have replaced : after.uncounted = (kind.replacing replacement start).uncounted :=
      toAfter.symm.trans (lawful.replacing_congr same)
    obtain ⟨former, latter⟩ | ⟨_, former, made⟩ := Rule.firstOffer_pair_cases changes
    · obtain ⟨last, runBoth, toLast⟩ := lawful.run_second former latter
      exact ⟨last, runBoth, replaced.trans toLast⟩
    · cases made
      obtain ⟨last, runBoth, toLast⟩ := lawful.run_first former (joins.idle former)
      exact ⟨last, runBoth, replaced.trans toLast⟩

/-- So does it among other rules. -/
theorem Offering.Lawful.follows_unbundled {kind : Offering α ρ} (lawful : kind.Lawful)
    {whole first second : Rule} (joins : kind.Joins whole first second) {rules others : List Rule}
    (unbundled : Unbundled whole first second rules others) (node : α) :
    Follows (fun _ => True) Progress.uncounted (rules.foldlM kind.offer node)
      (others.foldlM kind.offer node) := by
  obtain ⟨front, back, rfl, rfl⟩ := unbundled
  rw [List.foldlM_append, List.foldlM_append]
  refine (lawful.follows_refl front node).bind fun visited => ?_
  simp only [List.foldlM_cons, ← bind_assoc]
  exact (lawful.follows_joins joins visited).bind (lawful.follows_refl back)

end Pass

/-- A rule does what two others do one after the other, whatever it is offered. -/
structure Rule.Joins (whole first second : Rule) : Prop where
  onExpr (depth : Nat) : (Pass.offeringExprs depth).Joins whole first second
  onBlock (depth : Nat) : (Pass.offeringBlocks depth).Joins whole first second
  onField (around : FieldDecl → ClassDecl) : (Pass.offeringFields around).Joins whole first second

namespace Pass

variable {whole first second : Rule}

/-- A pass does the same with the two rules in place of the one. -/
theorem follow_of_unbundled (joins : whole.Joins first second) {rules others : List Rule}
    (unbundled : Unbundled whole first second rules others) :
    Follow (fun _ => True) rules others where
  offersExpr depth := (lawful_offeringExprs depth).follows_unbundled (joins.onExpr depth) unbundled
  offersBlock depth :=
    (lawful_offeringBlocks depth).follows_unbundled (joins.onBlock depth) unbundled
  offersField around := (lawful_offeringFields around).follows_unbundled (joins.onField around) unbundled

/-- **A bundle does what its parts do** if no expression is for both of them, the second leaves alone what
the first has made of an expression, and only the first changes blocks and fields. -/
theorem joins_bundle (name description : String)
    (apart : ∀ expr scope, first.applies expr scope = true → second.applies expr scope = false)
    (idle : ∀ depth {expr scope replacement},
      (offeringExprs depth).change? first expr scope = .ok (some replacement) →
      ∀ later, (offeringExprs depth).change? second replacement.expr later = .ok none)
    (noBlock : ∀ block scope, second.onBlock block scope = .ok none)
    (noField : ∀ field declared scope, second.onField field declared scope = .ok none) :
    (Rule.bundle name description [first, second]).Joins first second where
  onExpr depth := by
    refine ⟨fun expr scope => ?_, idle depth⟩
    change changing Replacement.expr expr (if _ then _ else _) = Rule.firstOffer
      [changing Replacement.expr expr (if _ then _ else _),
        changing Replacement.expr expr (if _ then _ else _)]
    have idle : changing Replacement.expr expr (.ok none) = .ok none := rfl
    cases former : first.applies expr (scope.goDown depth) with
    | true =>
      simp [Rule.bundle, former, apart expr _ former, Rule.firstOffer_singleton, idle,
        Rule.firstOffer_pair_none_right]
    | false =>
      cases latter : second.applies expr (scope.goDown depth) <;>
        simp [Rule.bundle, former, latter, Rule.firstOffer_singleton, idle,
          Rule.firstOffer_pair_none_left]
  onBlock depth := by
    have idle (block : List Statement) (scope : Scope) :
        (offeringBlocks depth).change? second block scope = .ok none := by
      change changing _ _ (second.onBlock block (scope.goDown depth)) = _
      rw [noBlock]
      rfl
    refine ⟨fun block scope => ?_, fun _ later => idle _ later⟩
    rw [idle, Rule.firstOffer_pair_none_right]
    change changing _ _ (Rule.firstOffer [_, second.onBlock block (scope.goDown depth)]) = _
    rw [noBlock, Rule.firstOffer_pair_none_right]
    rfl
  onField around := by
    have idle (field : FieldDecl) (scope : Scope) :
        (offeringFields around).change? second field scope = .ok none := by
      change changing _ _ (second.onField field (around field) scope) = _
      rw [noField]
      rfl
    refine ⟨fun field scope => ?_, fun _ later => idle _ later⟩
    rw [idle, Rule.firstOffer_pair_none_right]
    change changing _ _ (Rule.firstOffer [_, second.onField field (around field) scope]) = _
    rw [noField, Rule.firstOffer_pair_none_right]
    rfl

end Pass

/-! ## Redirected calls -/

/-- What is printed is redirected by one rule as by two. -/
theorem Redirect.joins_rule (settings : Redirect) :
    settings.rule.Joins settings.consoleRule settings.stackTraceRule := by
  refine Pass.joins_bundle _ _ ?_ ?_ (fun _ _ => rfl) (fun _ _ _ => rfl)
  · intro expr scope console
    refine Bool.eq_false_iff.mpr fun trace => ?_
    have other : callsNamed ["println", "print"] expr = false := not_callsNamed_console trace
    exact absurd (other.symm.trans console) Bool.false_ne_true
  · intro depth expr scope replacement changes later
    have answer := Pass.answer_of_changing changes
    split at answer
    · -- A call of a logger prints no stack trace.
      rename_i applies
      obtain ⟨-, logs, -⟩ := (redirects_consoleRule settings).turns applies answer
      have silent : settings.stackTraceRule.applies replacement.expr (later.goDown depth) = false :=
        logs.not_callsNamed (by decide)
      change Pass.changing _ _ (if settings.stackTraceRule.applies _ _ then _ else _) = _
      rw [silent]
      rfl
    · cases answer

namespace Engine

variable {engine : Engine}

/-- An engine whose rules do not fail transforms a unit, or its budget is not enough. -/
theorem transformFrom_cases (answers : ∀ rule ∈ engine.rules, Pass.Answers rule)
    (unit visited : CompilationUnit) (remaining : Nat) (statistics : Statistics)
    (replacements : Nat) :
    (∃ outcome,
        (engine.transformFrom unit remaining statistics visited replacements).1 = .ok outcome) ∨
      (engine.transformFrom unit remaining statistics visited replacements).1 =
        .error (.nonConvergence unit.displayName engine.maxCycles) := by
  induction remaining generalizing statistics visited replacements with
  | zero => exact .inr rfl
  | succ remaining ih =>
    obtain ⟨next, after, run⟩ := Pass.succeeds_visitUnit answers visited { statistics }
    have passed := cycle_eq_ok.mpr ⟨after, run, rfl⟩
    rw [transformFrom]
    cases pass : engine.cycle statistics visited with
    | mk result counted =>
      rw [pass] at passed
      cases passed
      cases count : after.replacements with
      | zero => exact .inl ⟨_, rfl⟩
      | succ count => exact ih _ _ _

/-- Neither engine can be built, for the same reason; or both transform every unit to the same outcome,
except for units for which the budget of neither is enough. -/
def Agree : Except Error Engine → Except Error Engine → Prop
  | .error reason, .error other => reason = other
  | .ok engine, .ok other => ∀ statistics counted unit,
      (∃ outcome, (engine.transform statistics unit).1 = .ok outcome ∧
        (other.transform counted unit).1 = .ok outcome) ∨
      (∃ name cycles, (engine.transform statistics unit).1 = .error (.nonConvergence name cycles) ∧
        (other.transform counted unit).1 = .error (.nonConvergence name cycles))
  | _, _ => False

/-- The rules of a list of names in two parts are built part by part. -/
theorem ofConfiguration_append (configuration : Configuration) (before after : List String) :
    ofConfiguration { configuration with rules := before ++ after } =
      (before.mapM configuration.buildRule).bind fun front =>
        (after.mapM configuration.buildRule).map fun back =>
          { rules := Rule.byPriority (front ++ back), maxCycles := configuration.maxCycles } := by
  have step : ofConfiguration { configuration with rules := before ++ after } =
      ((before ++ after).mapM configuration.buildRule).map fun rules =>
        { rules := Rule.byPriority rules, maxCycles := configuration.maxCycles } := rfl
  rw [step, List.mapM_append]
  cases before.mapM configuration.buildRule with
  | error reason => rfl
  | ok front => cases after.mapM configuration.buildRule <;> rfl

/-- Engines agree if one has the two rules in place of a rule that does what they do. -/
theorem agree_of_unbundled {other : Engine} {whole first second : Rule}
    (answers : ∀ rule ∈ engine.rules, Pass.Answers rule) (joins : whole.Joins first second)
    (unbundled : Unbundled whole first second engine.rules other.rules)
    (room : engine.slack ≤ other.slack) (budget : engine.maxCycles = other.maxCycles) :
    Agree (.ok engine) (.ok other) := by
  intro statistics counted unit
  have same := transform_of_follow (Pass.follow_of_unbundled joins unbundled) room answers budget
    statistics counted unit
  rw [← same]
  obtain ⟨outcome, converged⟩ | failed :=
    transformFrom_cases answers unit unit engine.maxCycles statistics 0
  · exact .inl ⟨outcome, converged, converged⟩
  · exact .inr ⟨_, _, failed, failed⟩

/-- **A bundle equals its parts.** A configuration may list the rule for all that is printed, or in its
place the rules for console writes and for stack traces: the engines have the same results. -/
theorem agree_unbundled (configuration : Configuration) (before after : List String) :
    Agree (ofConfiguration { configuration with rules := before ++ "system-print" :: after })
      (ofConfiguration { configuration with
        rules := before ++ "console" :: "print-stack-trace" :: after }) := by
  let settings := configuration.redirect
  have whole : ("system-print" :: after).mapM configuration.buildRule =
      (after.mapM configuration.buildRule).map (settings.rule :: ·) := by
    rw [List.mapM_cons]
    cases after.mapM configuration.buildRule <;> rfl
  have parts : ("console" :: "print-stack-trace" :: after).mapM configuration.buildRule =
      (after.mapM configuration.buildRule).map
        (settings.consoleRule :: settings.stackTraceRule :: ·) := by
    rw [List.mapM_cons, List.mapM_cons]
    cases after.mapM configuration.buildRule <;> rfl
  have built := ofConfiguration_append configuration before ("system-print" :: after)
  rw [whole] at built
  rw [ofConfiguration_append configuration before ("console" :: _), parts]
  cases front : before.mapM configuration.buildRule with
  | error reason =>
    rw [built, front]
    exact rfl
  | ok front' =>
    cases back : after.mapM configuration.buildRule with
    | error reason =>
      rw [built, front, back]
      exact rfl
    | ok back' =>
      rw [front, back] at built
      rw [built]
      have former : settings.consoleRule.priority = settings.rule.priority := rfl
      have latter : settings.stackTraceRule.priority = settings.rule.priority := rfl
      have unbundled := Rule.unbundled_byPriority former latter ⟨front', back', rfl, rfl⟩
      exact agree_of_unbundled (fun rule member =>
        (suits_of_ofConfiguration built "" rule member).answers) settings.joins_rule unbundled
        (Nat.le_refl 100) rfl

end Engine

end LogCalls
