import LogCalls.Proofs.Engine.FixedPoint
import LogCalls.Proofs.Engine.Visits

/-! # Passes that do the same

Two lists of rules that make the same of every expression, block and field make the same of every unit.
What they count on the way may differ, and it is enough if they do the same in the passes whose effects
end as wanted. -/

namespace LogCalls

namespace Progress

/-- The progress with one more replacement. -/
def advance (progress : Progress) : Progress :=
  { progress with replacements := progress.replacements + 1 }

/-- Effects do not depend on counts. -/
theorem effects_eq_of_uncounted_eq {start progress : Progress}
    (same : start.uncounted = progress.uncounted) : start.effects = progress.effects := by
  change start.uncounted.effects = progress.uncounted.effects
  rw [same]

/-- Nor does collecting them. -/
theorem uncounted_collect (progress : Progress) (effects : Effects) :
    (progress.collect effects).uncounted = progress.uncounted.collect effects := rfl

/-- Nor does a request. -/
theorem uncounted_request (progress : Progress) (request : FieldRequest) :
    (progress.request request).uncounted = progress.uncounted.request request := by
  unfold Progress.request
  by_cases declared : progress.scope.current.declares request.fieldName
  · rw [if_pos declared]
    exact (if_pos declared).symm
  · rw [if_neg declared]
    exact (if_neg declared).symm

/-- Nor does absorbing effects. -/
theorem uncounted_absorb (progress : Progress) (effects : Effects) :
    (progress.absorb effects).uncounted = progress.uncounted.absorb effects := by
  unfold absorb
  cases effects.field with
  | none => rfl
  | some request => rw [uncounted_collect, uncounted_request]

/-- Equal progress absorbs alike. -/
theorem uncounted_absorb_eq {progress start : Progress}
    (same : progress.uncounted = start.uncounted) (effects : Effects) :
    (progress.absorb effects).uncounted = (start.absorb effects).uncounted := by
  rw [uncounted_absorb, uncounted_absorb, same]

/-- Absorbing effects merges their imports. -/
theorem addImports_absorb (progress : Progress) (effects : Effects) :
    (progress.absorb effects).effects.addImports = (progress.effects.merge effects).addImports := by
  unfold absorb
  cases effects.field with
  | none => rfl
  | some request =>
    dsimp only
    unfold Progress.request
    split <;> rfl

/-- A counted replacement only advances. -/
theorem uncounted_countReplacement (progress : Progress) (rule : Rule) :
    (progress.countReplacement rule).uncounted = progress.advance.uncounted := rfl

/-- Equal progress advances alike. -/
theorem uncounted_advance_eq {progress start : Progress}
    (same : progress.uncounted = start.uncounted) :
    progress.advance.uncounted = start.advance.uncounted := by
  change progress.uncounted.advance = start.uncounted.advance
  rw [same]

end Progress

namespace Pass

variable {α β σ : Type} {ends : Effects → Prop} {view : Progress → σ}

/-! ## Actions -/

/-- Where the first action succeeds with effects that end as wanted, they were as wanted from the start,
and the second action succeeds with the same result. The actions may start from and end with progress
that only looks the same. -/
def Follows (ends : Effects → Prop) (view : Progress → σ) (first second : PassM α) : Prop :=
  ∀ progress result after, first.run progress = .ok result after → ends after.effects →
    ends progress.effects ∧ ∀ start, view progress = view start →
      ∃ stop, second.run start = .ok result stop ∧ view after = view stop

namespace Follows

/-- A result follows itself. -/
theorem pure (result : α) : Follows ends view (Pure.pure result) (Pure.pure result) := by
  intro progress _ after run ended
  cases run
  exact ⟨ended, fun start same => ⟨start, rfl, same⟩⟩

/-- Visits follow step by step. -/
theorem bind {visit visit' : PassM α} {next next' : α → PassM β} (first : Follows ends view visit visit')
    (second : ∀ result, Follows ends view (next result) (next' result)) :
    Follows ends view (visit >>= next) (visit' >>= next') := by
  intro progress result after run ended
  obtain ⟨value, middle, runFirst, runNext⟩ := run_bind_eq_ok.mp run
  -- What holds at the end is carried back to the start, and from there the second visit runs forward.
  obtain ⟨endedFirst, follow⟩ := second value _ _ _ runNext ended
  obtain ⟨endedBefore, followFirst⟩ := first _ _ _ runFirst endedFirst
  refine ⟨endedBefore, fun start same => ?_⟩
  obtain ⟨middle', runFirst', sameMiddle⟩ := followFirst start same
  obtain ⟨stop, runNext', sameStop⟩ := follow middle' sameMiddle
  exact ⟨stop, run_bind_eq_ok.mpr ⟨value, middle', runFirst', runNext'⟩, sameStop⟩

/-- To follow is kept when visits are put together, whatever is visited. -/
theorem joint : Joint fun {_} _ first second => Follows ends view first second where
  pure := pure
  bind _ := Follows.bind

end Follows

/-! ## Offers -/

/-- A kind of nodes that are offered to rules. -/
structure Offering (α ρ : Type) where
  offer : α → Rule → PassM α
  /-- What the rule puts in place of the node, if that is something else. -/
  change? : Rule → α → Scope → Offer ρ
  made : ρ → α
  effects : ρ → Effects
  /-- What becomes of the progress when a node is replaced. -/
  replacing : ρ → Progress → Progress

/-- Up to its counts, an offer does what the change says. -/
structure Offering.Lawful {ρ : Type} (kind : Offering α ρ) : Prop where
  run_none {rule : Rule} {node : α} {progress : Progress} :
    kind.change? rule node progress.scope = .ok none →
    ∃ after, (kind.offer node rule).run progress = .ok node after ∧
      progress.uncounted = after.uncounted
  run_some {rule : Rule} {node : α} {progress : Progress} {replacement : ρ} :
    kind.change? rule node progress.scope = .ok (some replacement) →
    ∃ after, (kind.offer node rule).run progress = .ok (kind.made replacement) after ∧
      (kind.replacing replacement progress).uncounted = after.uncounted
  run_error {rule : Rule} {node : α} {progress : Progress} {reason : String} :
    kind.change? rule node progress.scope = .error reason →
    ∃ error after, (kind.offer node rule).run progress = .error error after
  replacing_congr {replacement : ρ} {progress start : Progress} :
    progress.uncounted = start.uncounted →
    (kind.replacing replacement progress).uncounted = (kind.replacing replacement start).uncounted
  addImports_replacing {replacement : ρ} {progress : Progress} :
    (kind.replacing replacement progress).effects.addImports =
      (progress.effects.merge (kind.effects replacement)).addImports

/-- An answer that changes the node. -/
def changing {ρ : Type} [DecidableEq α] (made : ρ → α) (node : α) (answer : Offer ρ) : Offer ρ :=
  answer.map (·.filter fun replacement => made replacement ≠ node)

/-- An offer that is settled as the rule answers. -/
theorem Offering.lawful_of_settle {ρ : Type} [DecidableEq α] {kind : Offering α ρ}
    (declined : Rule → α → Scope → Progress → Progress)
    (replaced : Rule → ρ → Progress → Progress) (failure : Rule → α → Scope → String → Error)
    (failed : Rule → Progress → Progress) (answer : Rule → α → Scope → Offer ρ)
    (run : ∀ rule node progress, (kind.offer node rule).run progress =
      settle rule node kind.made (declined rule node progress.scope) (replaced rule)
        (failure rule node progress.scope) (failed rule) (answer rule node progress.scope) progress)
    (change : ∀ rule node scope,
      kind.change? rule node scope = changing kind.made node (answer rule node scope))
    (counts : ∀ rule node scope start,
      (declined rule node scope start).uncounted = start.uncounted)
    (replaces : ∀ rule replacement progress,
      (kind.replacing replacement progress).uncounted =
        (replaced rule replacement progress).uncounted)
    (congr : ∀ replacement progress start, progress.uncounted = start.uncounted →
      (kind.replacing replacement progress).uncounted = (kind.replacing replacement start).uncounted)
    (addImports : ∀ replacement progress, (kind.replacing replacement progress).effects.addImports =
      (progress.effects.merge (kind.effects replacement)).addImports) : kind.Lawful where
  run_none {rule node progress} declines := by
    rw [change] at declines
    rw [run]
    cases given : answer rule node progress.scope with
    | error reason =>
      rw [given] at declines
      cases declines
    | ok reply =>
      rw [given] at declines
      cases reply with
      | none => exact ⟨_, rfl, (counts rule node _ progress).symm⟩
      | some replacement =>
        have same : kind.made replacement = node := by
          simpa [changing, Except.map] using declines
        exact ⟨_, if_pos same, rfl⟩
  run_some {rule node progress replacement} replaces' := by
    rw [change] at replaces'
    rw [run]
    cases given : answer rule node progress.scope with
    | error reason =>
      rw [given] at replaces'
      cases replaces'
    | ok reply =>
      rw [given] at replaces'
      obtain ⟨found, changed⟩ := Option.filter_eq_some_iff.mp (Except.ok.inj replaces')
      rw [found]
      exact ⟨_, if_neg (of_decide_eq_true changed), replaces rule replacement progress⟩
  run_error {rule node progress reason} fails := by
    rw [change] at fails
    rw [run]
    cases given : answer rule node progress.scope with
    | error reason => exact ⟨_, _, rfl⟩
    | ok reply =>
      rw [given] at fails
      cases fails
  replacing_congr := congr _ _ _
  addImports_replacing := addImports _ _

namespace Offering.Lawful

variable {ρ : Type} {kind : Offering α ρ}

/-- A successful offer leaves the node alone, or it puts the replacement in place. -/
theorem run_ok (lawful : kind.Lawful) {rule : Rule} {node visited : α} {progress after : Progress}
    (run : (kind.offer node rule).run progress = .ok visited after) :
    (kind.change? rule node progress.scope = .ok none ∧ visited = node ∧
        progress.uncounted = after.uncounted) ∨
      ∃ replacement, kind.change? rule node progress.scope = .ok (some replacement) ∧
        visited = kind.made replacement ∧
        (kind.replacing replacement progress).uncounted = after.uncounted := by
  cases change : kind.change? rule node progress.scope with
  | error reason =>
    obtain ⟨error, stop, failed⟩ := lawful.run_error change
    rw [failed] at run
    cases run
  | ok reply =>
    cases reply with
    | none =>
      obtain ⟨stop, settled, same⟩ := lawful.run_none change
      rw [settled] at run
      cases run
      exact .inl ⟨rfl, rfl, same⟩
    | some replacement =>
      obtain ⟨stop, settled, same⟩ := lawful.run_some change
      rw [settled] at run
      cases run
      exact .inr ⟨replacement, rfl, rfl, same⟩

/-- An offer to a rule follows an offer to another if it changes the node in the same way, as long as
the effects are as wanted. -/
theorem follows (lawful : kind.Lawful) {rule other : Rule} {node : α}
    (idle : ∀ {scope}, kind.change? rule node scope = .ok none →
      kind.change? other node scope = .ok none)
    (changes : ∀ {replacement} {progress : Progress},
      kind.change? rule node progress.scope = .ok (some replacement) →
      ends (kind.replacing replacement progress).effects →
      ends progress.effects ∧ kind.change? other node progress.scope = .ok (some replacement)) :
    Follows ends Progress.uncounted (kind.offer node rule) (kind.offer node other) := by
  intro progress visited after run ended
  obtain ⟨change, rfl, same⟩ | ⟨replacement, change, rfl, same⟩ := lawful.run_ok run
  · refine ⟨Progress.effects_eq_of_uncounted_eq same ▸ ended, fun start alike => ?_⟩
    rw [Progress.scope_eq_of_uncounted_eq alike] at change
    obtain ⟨stop, run', same'⟩ := lawful.run_none (idle change)
    exact ⟨stop, run', same.symm.trans (alike.trans same')⟩
  · rw [← Progress.effects_eq_of_uncounted_eq same] at ended
    obtain ⟨endedBefore, change'⟩ := changes change ended
    refine ⟨endedBefore, fun start alike => ?_⟩
    rw [Progress.scope_eq_of_uncounted_eq alike] at change'
    obtain ⟨stop, run', same'⟩ := lawful.run_some change'
    exact ⟨stop, run', same.symm.trans ((lawful.replacing_congr alike).trans same')⟩

end Offering.Lawful

/-- Offers to one rule after the other follow each other if the offers to each rule do. -/
theorem Follows.foldOffers {offer : α → Rule → PassM α} {rules others : List Rule}
    (each : List.Forall₂
      (fun rule other => ∀ node, Follows ends view (offer node rule) (offer node other)) rules others)
    (node : α) : Follows ends view (rules.foldlM offer node) (others.foldlM offer node) := by
  induction each generalizing node with
  | nil => exact Follows.pure node
  | cons follows _ ih =>
    rw [List.foldlM_cons, List.foldlM_cons]
    exact (follows node).bind ih

/-- The offers of expressions. -/
def offeringExprs (depth : Nat) : Offering Expr Replacement where
  offer := offerExpr depth
  change? rule expr scope := changing Replacement.expr expr
    (if rule.applies expr (scope.goDown depth) then rule.onExpr expr (scope.goDown depth)
      else .ok none)
  made := Replacement.expr
  effects := Replacement.effects
  replacing replacement progress := progress.advance.absorb replacement.effects

/-- Offers of expressions are lawful. -/
theorem lawful_offeringExprs (depth : Nat) : (offeringExprs depth).Lawful := by
  refine Offering.lawful_of_settle
    (fun rule expr scope => if rule.applies expr (scope.goDown depth) then
      (·.count rule RuleStatistics.applied) else id)
    (fun rule replacement start => (start.countReplacement rule).absorb replacement.effects)
    (fun rule _ scope => .ruleFailed rule.name (.expression scope.current.fqn))
    (fun rule => (·.count rule RuleStatistics.failed))
    (fun rule expr scope => if rule.applies expr (scope.goDown depth) then
      rule.onExpr expr (scope.goDown depth) else .ok none)
    (fun rule expr => run_offerExpr depth expr rule) (fun _ _ _ => rfl) ?_ ?_ ?_ ?_
  · intro rule expr scope start
    split <;> rfl
  · intro rule replacement progress
    exact Progress.uncounted_absorb_eq (progress.uncounted_countReplacement rule).symm
      replacement.effects
  · intro replacement progress start same
    exact Progress.uncounted_absorb_eq (Progress.uncounted_advance_eq same) replacement.effects
  · intro replacement progress
    exact progress.advance.addImports_absorb replacement.effects

/-- The offers of blocks. -/
def offeringBlocks (depth : Nat) : Offering (List Statement) BlockReplacement where
  offer := offerBlock depth
  change? rule block scope := changing BlockReplacement.statements block
    (rule.onBlock block (scope.goDown depth))
  made := BlockReplacement.statements
  effects := BlockReplacement.effects
  replacing replacement progress := progress.advance.absorb replacement.effects

/-- Offers of blocks are lawful. -/
theorem lawful_offeringBlocks (depth : Nat) : (offeringBlocks depth).Lawful := by
  refine Offering.lawful_of_settle (fun _ _ _ => id)
    (fun rule replacement start => (start.countReplacement rule).absorb replacement.effects)
    (fun rule _ _ => .ruleFailed rule.name .block) (fun _ => id)
    (fun rule block scope => rule.onBlock block (scope.goDown depth))
    (fun rule block => run_offerBlock depth block rule) (fun _ _ _ => rfl) (fun _ _ _ _ => rfl) ?_ ?_ ?_
  · intro rule replacement progress
    exact Progress.uncounted_absorb_eq (progress.uncounted_countReplacement rule).symm
      replacement.effects
  · intro replacement progress start same
    exact Progress.uncounted_absorb_eq (Progress.uncounted_advance_eq same) replacement.effects
  · intro replacement progress
    exact progress.advance.addImports_absorb replacement.effects

/-- The offers of the fields of a class. -/
def offeringFields (around : FieldDecl → ClassDecl) : Offering FieldDecl FieldReplacement where
  offer := offerField around
  change? rule field scope := changing FieldReplacement.field field
    (rule.onField field (around field) scope)
  made := FieldReplacement.field
  effects := FieldReplacement.effects
  replacing replacement progress := progress.advance.collect replacement.effects

/-- Offers of fields are lawful. -/
theorem lawful_offeringFields (around : FieldDecl → ClassDecl) :
    (offeringFields around).Lawful := by
  refine Offering.lawful_of_settle (fun _ _ _ => id)
    (fun rule replacement start => (start.countReplacement rule).collect replacement.effects)
    (fun rule field _ => .ruleFailed rule.name (.field field.name)) (fun _ => id)
    (fun rule field scope => rule.onField field (around field) scope)
    (fun rule field => run_offerField around field rule) (fun _ _ _ => rfl) (fun _ _ _ _ => rfl)
    (fun _ _ _ => rfl) ?_ (fun _ _ => rfl)
  intro replacement progress start same
  change progress.advance.uncounted.collect _ = start.advance.uncounted.collect _
  rw [Progress.uncounted_advance_eq same]

/-! ## Rules -/

/-- Whatever is offered to the first rules and then to the second, the second follow. -/
structure Follow (ends : Effects → Prop) (rules others : List Rule) : Prop where
  offersExpr (depth : Nat) (expr : Expr) :
    Follows ends Progress.uncounted (rules.foldlM (offerExpr depth) expr)
      (others.foldlM (offerExpr depth) expr)
  offersBlock (depth : Nat) (block : List Statement) :
    Follows ends Progress.uncounted (rules.foldlM (offerBlock depth) block)
      (others.foldlM (offerBlock depth) block)
  offersField (around : FieldDecl → ClassDecl) (field : FieldDecl) :
    Follows ends Progress.uncounted (rules.foldlM (offerField around) field)
      (others.foldlM (offerField around) field)

namespace Follow

variable {rules others : List Rule} {slack more : Nat}

/-- Rules that follow give a joint law. -/
theorem toJointLaw (follow : Follow ends rules others) :
    JointLaw rules others fun _ first second => Follows ends Progress.uncounted first second where
  toJoint := Follows.joint
  offersExpr := follow.offersExpr
  offersBlock := follow.offersBlock
  offersField := follow.offersField

/-- A visit that gives up does not succeed, so every visit follows it. -/
theorem givesUp : GivesUp fun _ first second => Follows ends Progress.uncounted first second :=
  fun _ _ _ _ _ run => by cases run

mutual

/-- Rules that follow other rules follow them in every class, if they may nest blocks as deep. -/
theorem visitClass (follow : Follow ends rules others) (room : slack ≤ more) (depth : Nat)
    (scope : Scope) : ∀ declared : ClassDecl,
      Follows ends Progress.yielded (visitClass rules slack depth scope declared)
        (visitClass others more depth scope declared)
  | .decl header fields methods nested => by
    intro progress result after run ended
    obtain ⟨declared, offered, initialized, seen, called, last, inner, runFields, runInitializers,
      runMethods, runNested, rfl⟩ := run_visitClass_eq_ok.mp run
    have law := follow.toJointLaw
    -- Back from the end of the pass, part by part, and then forward with the other rules.
    obtain ⟨endedMethods, followNested⟩ :=
      follow.visitNested room (depth - 1) last.scope nested _ _ _ runNested ended
    obtain ⟨endedInitializers, followMethods⟩ :=
      law.mapList _ _ methods (fun method _ => law.visitMethod givesUp room depth method) _ _ _
        runMethods endedMethods
    obtain ⟨endedFields, followInitializers⟩ :=
      law.mapList _ _ declared (fun field _ => law.visitInitializer givesUp room depth field) _ _ _
        runInitializers endedInitializers
    obtain ⟨endedBefore, followFields⟩ :=
      law.visitFields _ [] fields _ _ _ runFields endedFields
    refine ⟨endedBefore, fun start same => ?_⟩
    obtain ⟨offered', runFields', sameOffered⟩ :=
      followFields (start.enter scope) (uncounted_enter_eq same scope)
    obtain ⟨seen', runInitializers', sameSeen⟩ :=
      followInitializers _ (uncounted_seeFields_eq sameOffered declared)
    obtain ⟨last', runMethods', sameLast⟩ := followMethods seen' sameSeen
    obtain ⟨stop, runNested', sameStop⟩ :=
      followNested last' (Progress.yielded_eq_of_uncounted_eq sameLast)
    have sameScope : last.scope = last'.scope := Progress.scope_eq_of_uncounted_eq sameLast
    have sameRequests : last.requests = last'.requests :=
      Progress.requests_eq_of_uncounted_eq sameLast
    refine ⟨stop, run_visitClass_eq_ok.mpr ?_, sameStop⟩
    exact ⟨declared, offered', initialized, seen', called, last', inner, runFields',
      runInitializers', runMethods', sameScope ▸ runNested', sameRequests ▸ rfl⟩

/-- Rules that follow other rules follow them in all nested classes. -/
theorem visitNested (follow : Follow ends rules others) (room : slack ≤ more) (depth : Nat)
    (scope : Scope) : ∀ nested : List ClassDecl,
      Follows ends Progress.yielded (visitNested rules slack depth scope nested)
        (visitNested others more depth scope nested)
  | [] => by
    rw [Pass.visitNested, Pass.visitNested]
    exact Follows.pure []
  | first :: rest => by
    rw [Pass.visitNested, Pass.visitNested]
    exact (follow.visitClass room depth (scope.nested first) first).bind fun visited =>
      (follow.visitNested room depth scope rest).bind fun inner => Follows.pure (visited :: inner)

end

/-- Rules that follow other rules follow them in every unit. -/
theorem visitUnit (follow : Follow ends rules others) (room : slack ≤ more)
    (unit : CompilationUnit) :
    Follows ends Progress.yielded (visitUnit rules slack unit) (visitUnit others more unit) := by
  intro progress result after run ended
  obtain ⟨classes, runClasses, rfl⟩ := run_visitUnit_eq_ok.mp run
  obtain ⟨endedBefore, followClasses⟩ :=
    Follows.joint.mapList _ _ unit.classes (fun declared _ => follow.visitClass room _ _ declared) _ _ _
      runClasses ended
  refine ⟨endedBefore, fun start same => ?_⟩
  obtain ⟨stop, runClasses', sameStop⟩ := followClasses start same
  have sameEffects : after.effects = stop.effects := congrArg Prod.fst sameStop
  exact ⟨stop, run_visitUnit_eq_ok.mpr ⟨classes, runClasses', sameEffects ▸ rfl⟩, sameStop⟩

/-- Rules follow themselves. -/
theorem refl (rules : List Rule) : Follow (fun _ => True) rules rules where
  offersExpr depth := Follows.foldOffers (List.forall₂_same.mpr fun _ _ _ =>
    (lawful_offeringExprs depth).follows id fun change _ => ⟨trivial, change⟩)
  offersBlock depth := Follows.foldOffers (List.forall₂_same.mpr fun _ _ _ =>
    (lawful_offeringBlocks depth).follows id fun change _ => ⟨trivial, change⟩)
  offersField around := Follows.foldOffers (List.forall₂_same.mpr fun _ _ _ =>
    (lawful_offeringFields around).follows id fun change _ => ⟨trivial, change⟩)

end Follow

end Pass

namespace Engine

variable {engine other : Engine}

/-- A pass of rules that always follow other rules makes the same of every unit, unless the pass of the
others fails. -/
theorem cycle_of_follow (follow : Pass.Follow (fun _ => True) engine.rules other.rules)
    (room : engine.slack ≤ other.slack) {statistics : Statistics} (counted : Statistics)
    {unit : CompilationUnit} {result : CompilationUnit × Nat}
    (passed : (engine.cycle statistics unit).1 = .ok result) :
    (other.cycle counted unit).1 = .ok result := by
  obtain ⟨visited, count⟩ := result
  obtain ⟨after, run, counts⟩ := cycle_eq_ok.mp passed
  obtain ⟨-, follows⟩ := follow.visitUnit room unit _ _ _ run trivial
  obtain ⟨stop, run', same⟩ := follows { statistics := counted } rfl
  have replaced : after.replacements = stop.replacements := congrArg Prod.snd same
  exact cycle_eq_ok.mpr ⟨stop, run', replaced.symm.trans counts⟩

/-- The engines agree from any point on, or a pass of the first one fails. -/
theorem transformFrom_of_follow (follow : Pass.Follow (fun _ => True) engine.rules other.rules)
    (room : engine.slack ≤ other.slack) (budget : engine.maxCycles = other.maxCycles)
    (unit : CompilationUnit) (remaining : Nat) :
    ∀ (statistics counted : Statistics) (visited : CompilationUnit) (replacements : Nat),
      (engine.transformFrom unit remaining statistics visited replacements).1 =
          (other.transformFrom unit remaining counted visited replacements).1 ∨
        ∃ before passed error, (engine.cycle before passed).1 = .error error ∧
          (engine.transformFrom unit remaining statistics visited replacements).1 = .error error := by
  induction remaining with
  | zero =>
    intro statistics counted visited replacements
    rw [transformFrom, transformFrom, budget]
    exact .inl rfl
  | succ remaining later =>
    intro statistics counted visited replacements
    rw [transformFrom, transformFrom]
    cases first : engine.cycle statistics visited with
    | mk result after =>
      cases second : other.cycle counted visited with
      | mk result' after' =>
        rcases result with error | ⟨passed, count⟩
        · exact .inr ⟨statistics, visited, error, by rw [first], rfl⟩
        · have same := cycle_of_follow follow room counted (congrArg Prod.fst first)
          rw [second] at same
          cases same
          cases count with
          | zero =>
            rw [budget]
            exact .inl rfl
          | succ count => exact later _ _ _ _

/-- **Engines whose rules follow each other agree.** If the rules do not fail and the budgets are the
same, a unit has the same outcome under both. -/
theorem transform_of_follow (follow : Pass.Follow (fun _ => True) engine.rules other.rules)
    (room : engine.slack ≤ other.slack) (answers : ∀ rule ∈ engine.rules, Pass.Answers rule)
    (budget : engine.maxCycles = other.maxCycles) (statistics counted : Statistics)
    (unit : CompilationUnit) :
    (engine.transform statistics unit).1 = (other.transform counted unit).1 := by
  have from_ := transformFrom_of_follow follow room budget unit engine.maxCycles statistics counted
    unit 0
  rw [transform, transform, ← budget]
  refine from_.resolve_right ?_
  rintro ⟨before, visited, error, failed, -⟩
  obtain ⟨passed, after, run⟩ := Pass.succeeds_visitUnit answers visited { statistics := before }
  cases (cycle_eq_ok.mpr ⟨after, run, rfl⟩).symm.trans failed

/-- **Slack makes no difference to an engine that succeeds.** However much deeper rules may nest blocks
in one pass, an outcome stays the same. -/
theorem transform_of_slack (slack : Nat) (room : engine.slack ≤ slack) (statistics counted : Statistics)
    (unit : CompilationUnit) (outcome : Outcome)
    (converged : (engine.transform statistics unit).1 = .ok outcome) :
    ({ engine with slack }.transform counted unit).1 = .ok outcome := by
  have from_ := @transformFrom_of_follow engine { engine with slack } (.refl _) room rfl unit
    engine.maxCycles statistics counted unit 0
  obtain same | ⟨-, -, error, -, failed⟩ := from_
  · exact same.symm.trans converged
  · cases converged.symm.trans failed

end Engine

end LogCalls
