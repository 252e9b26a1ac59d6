import LogCalls.Proofs.Engine.VisitLaw

/-! # Passes that replace nothing

The number of replacements never falls in the course of a pass, and a part of a pass that leaves it
as it was has done nothing at all: it returns its node as it is, it has collected no effects and
requested no fields, and it would do the same again whatever has been counted by then. -/

namespace LogCalls

variable {start progress : Progress}

namespace Progress

/-- The progress apart from what was counted for each rule. -/
def uncounted (progress : Progress) : Progress := { progress with statistics := {} }

/-- What a class leaves to the rest of a pass: the effects and the number of replacements. -/
def yielded (progress : Progress) : Effects × Nat := (progress.effects, progress.replacements)

@[simp] theorem replacements_countReplacement (progress : Progress) (rule : Rule) :
    (progress.countReplacement rule).replacements = progress.replacements + 1 := rfl

@[simp] theorem replacements_collect (progress : Progress) (effects : Effects) :
    (progress.collect effects).replacements = progress.replacements := rfl

/-- To request a field replaces nothing. -/
@[simp] theorem replacements_request (progress : Progress) (request : FieldRequest) :
    (progress.request request).replacements = progress.replacements := by
  unfold Progress.request
  split <;> rfl

/-- To collect effects replaces nothing. -/
@[simp] theorem replacements_absorb (progress : Progress) (effects : Effects) :
    (progress.absorb effects).replacements = progress.replacements := by
  unfold absorb
  cases effects.field <;> simp

/-- To collect effects leaves the pass in its class, and requests at most the field that they name. -/
theorem requests_absorb (progress : Progress) (effects : Effects) :
    (progress.absorb effects).scope.current.fqn = progress.scope.current.fqn ∧
      ∀ request ∈ (progress.absorb effects).requests,
        request ∈ progress.requests ∨ effects.field = some request := by
  unfold absorb
  split
  · rename_i request asked
    unfold Progress.request
    split
    · exact ⟨rfl, fun _ => .inl⟩
    · refine ⟨rfl, fun other member => (List.mem_append.mp member).imp_right fun new => ?_⟩
      rw [asked, List.mem_singleton.mp new]
  · exact ⟨rfl, fun _ => .inl⟩

/-- Progress that differs only in its counts has the same scope. -/
theorem scope_eq_of_uncounted_eq
    (same : start.uncounted = progress.uncounted) : start.scope = progress.scope := by
  change start.uncounted.scope = progress.uncounted.scope
  rw [same]

/-- Progress that differs only in its counts has the same requests. -/
theorem requests_eq_of_uncounted_eq
    (same : start.uncounted = progress.uncounted) : start.requests = progress.requests := by
  change start.uncounted.requests = progress.uncounted.requests
  rw [same]

/-- Progress that differs only in its counts has made as many replacements. -/
theorem replacements_eq_of_uncounted_eq (same : start.uncounted = progress.uncounted) :
    start.replacements = progress.replacements := by
  change start.uncounted.replacements = progress.uncounted.replacements
  rw [same]

/-- Progress that differs only in its counts leaves the same to the rest of the pass. -/
theorem yielded_eq_of_uncounted_eq
    (same : start.uncounted = progress.uncounted) : start.yielded = progress.yielded := by
  change start.uncounted.yielded = progress.uncounted.yielded
  rw [same]

end Progress

namespace Pass

variable {after : Progress} {rules : List Rule} {α β σ : Type} {slack : Nat}

/-- From every progress that looks like `progress`, the visit returns the node as it is and ends with
progress that still looks like it. -/
def Idle (view : Progress → σ) (node : α) (visit : PassM α) (progress : Progress) : Prop :=
  ∀ start, view start = view progress →
    ∃ stop, visit.run start = .ok node stop ∧ view stop = view progress

/-- The visit takes back no replacements, and is idle when it makes none. -/
def Conservative (view : Progress → σ) (node : α) (visit : PassM α) : Prop :=
  ∀ progress visited after, visit.run progress = .ok visited after →
    progress.replacements ≤ after.replacements ∧
      (after.replacements = progress.replacements → Idle view node visit progress)

/-- A sequence succeeds when its parts do, one from where the other has ended. -/
theorem run_bind_eq_ok {visit : PassM α} {next : α → PassM β} {result : β} :
    (visit >>= next).run progress = .ok result after ↔
      ∃ visited middle, visit.run progress = .ok visited middle ∧
        (next visited).run middle = .ok result after := by
  rw [EStateM.run_bind]
  cases visit.run progress with
  | ok visited middle =>
    constructor
    · exact fun run => ⟨visited, middle, rfl, run⟩
    · rintro ⟨_, _, ⟨⟩, run⟩
      exact run
  | error error middle => simp

/-- An action that looks at the progress first. -/
theorem run_get_bind (next : Progress → PassM α) (progress : Progress) :
    (get >>= next : PassM α).run progress = (next progress).run progress := rfl

/-! ## Composition -/

/-- An idle visit ends where it says and returns its node. -/
theorem Idle.of_run {view : Progress → σ} {node visited : α} {visit : PassM α}
    (idle : Idle view node visit progress)
    (run : visit.run progress = .ok visited after) : visited = node ∧ view after = view progress := by
  obtain ⟨stop, again, same⟩ := idle progress rfl
  rw [run] at again
  cases again
  exact ⟨rfl, same⟩

/-- Conservative visits, one after the other, are conservative. -/
theorem conservative_bind {view : Progress → σ} (whole : α → β) {part : α} {visit : PassM α}
    {next : α → PassM β} (first : Conservative view part visit)
    (second : ∀ visited, Conservative view (whole visited) (next visited)) :
    Conservative view (whole part) (visit >>= next) := by
  intro progress result after run
  obtain ⟨visited, middle, runFirst, runSecond⟩ := run_bind_eq_ok.mp run
  obtain ⟨firstGrows, firstIdle⟩ := first _ _ _ runFirst
  obtain ⟨secondGrows, secondIdle⟩ := second visited _ _ _ runSecond
  refine ⟨Nat.le_trans firstGrows secondGrows, fun unchanged start same => ?_⟩
  -- If the whole made no replacement, neither part did: the counts lie in between.
  have idleFirst := firstIdle (by omega)
  obtain ⟨rfl, sameMiddle⟩ := idleFirst.of_run runFirst
  obtain ⟨stopFirst, againFirst, sameFirst⟩ := idleFirst start same
  obtain ⟨stop, againSecond, sameSecond⟩ :=
    secondIdle (by omega) stopFirst (sameFirst.trans sameMiddle.symm)
  exact ⟨stop, run_bind_eq_ok.mpr ⟨_, stopFirst, againFirst, againSecond⟩,
    sameSecond.trans sameMiddle⟩

/-- To be conservative is kept when visits are put together, for every view of the progress. -/
theorem conservative_compositional (view : Progress → σ) :
    Compositional fun {_} node visit => Conservative view node visit where
  pure node := by
    intro progress visited after run
    cases run
    exact ⟨Nat.le_refl _, fun _ start same => ⟨start, rfl, same⟩⟩
  bind := conservative_bind

/-! ## Offers -/

/-- A successful visit makes one replacement, or else it does nothing but count. Which of the two it
does is settled by the scope. -/
def ReplacesOrCounts (node : α) (visit : PassM α) : Prop :=
  ∀ progress visited after, visit.run progress = .ok visited after →
    after.replacements = progress.replacements + 1 ∨
      ∃ count : Progress → Progress, (∀ start, (count start).uncounted = start.uncounted) ∧
        ∀ start, start.scope = progress.scope → visit.run start = .ok node (count start)

/-- A visit that replaces or counts is conservative. -/
theorem conservative_of_replacesOrCounts {node : α} {visit : PassM α}
    (either : ReplacesOrCounts node visit) : Conservative Progress.uncounted node visit := by
  intro progress visited after run
  obtain replaces | ⟨count, counts, counting⟩ := either _ _ _ run
  · exact ⟨by omega, fun unchanged => by omega⟩
  · have counted : after = count progress := by
      rw [counting progress rfl] at run
      cases run
      rfl
    have kept : after.replacements = progress.replacements := by
      change after.uncounted.replacements = progress.uncounted.replacements
      rw [counted, counts]
    refine ⟨by omega, fun _ start same => ⟨count start, ?_, ?_⟩⟩
    · exact counting start (Progress.scope_eq_of_uncounted_eq same)
    · rw [counts, same]

section Answers

variable {ρ : Type} [DecidableEq α]

/-- What becomes of an offer of `node` that a rule has answered. A replacement by the same node only
counts. The other arguments say how the offered kind of node is replaced, and what is counted. -/
def settle (rule : Rule) (node : α) (made : ρ → α) (declined : Progress → Progress)
    (replaced : ρ → Progress → Progress) (failure : String → Error) (failed : Progress → Progress)
    (answer : Offer ρ) (progress : Progress) : EStateM.Result Error Progress α :=
  match answer with
  | .error reason => .error (failure reason) (failed progress)
  | .ok none => .ok node (declined progress)
  | .ok (some replacement) =>
    if made replacement = node then .ok node (progress.count rule RuleStatistics.applied)
    else .ok (made replacement) (replaced replacement progress)

/-- An offer is settled with one replacement, or it does nothing but count, as long as the scope alone
settles what the rule answers. -/
theorem replacesOrCounts_of_settle {node : α} {visit : PassM α} (rule : Rule) (made : ρ → α)
    (declined : Scope → Progress → Progress) (replaced : ρ → Progress → Progress)
    (failure : Scope → String → Error) (failed : Progress → Progress) (answer : Scope → Offer ρ)
    (run : ∀ progress, visit.run progress =
      settle rule node made (declined progress.scope) replaced (failure progress.scope) failed
        (answer progress.scope) progress)
    (counts : ∀ scope start, (declined scope start).uncounted = start.uncounted)
    (replaces : ∀ replacement start,
      (replaced replacement start).replacements = start.replacements + 1) :
    ReplacesOrCounts node visit := by
  intro progress visited after ended
  rw [run] at ended
  cases given : answer progress.scope with
  | error reason => simp [settle, given] at ended
  | ok reply =>
    cases reply with
    | none =>
      refine .inr ⟨declined progress.scope, counts progress.scope, fun start same => ?_⟩
      rw [run, same, given]
      rfl
    | some replacement =>
      by_cases unchanged : made replacement = node
      · refine .inr ⟨(·.count rule RuleStatistics.applied), fun _ => rfl, ?_⟩
        intro start same
        rw [run, same, given]
        exact if_pos unchanged
      · simp only [settle, given, if_neg unchanged] at ended
        cases ended
        exact .inl (replaces replacement progress)

end Answers

/-- How the offer of an expression is settled. A rule that does not apply is not asked, which looks
like an answer that nothing is counted for. -/
theorem run_offerExpr (depth : Nat) (expr : Expr) (rule : Rule) (progress : Progress) :
    (offerExpr depth expr rule).run progress =
      settle rule expr Replacement.expr
        (if rule.applies expr (progress.scope.goDown depth) then
          (·.count rule RuleStatistics.applied) else id)
        (fun replacement start => (start.countReplacement rule).absorb replacement.effects)
        (.ruleFailed rule.name (.expression progress.scope.current.fqn))
        (·.count rule RuleStatistics.failed)
        (if rule.applies expr (progress.scope.goDown depth) then
          rule.onExpr expr (progress.scope.goDown depth) else .ok none)
        progress := by
  unfold offerExpr
  rw [run_get_bind]
  by_cases applies : rule.applies expr (progress.scope.goDown depth)
  · simp only [if_pos applies]
    cases rule.onExpr expr (progress.scope.goDown depth) with
    | error reason => rfl
    | ok reply =>
      cases reply with
      | none => rfl
      | some replacement =>
        by_cases unchanged : replacement.expr = expr
        · simp only [settle, if_pos unchanged]
          rfl
        · simp only [settle, if_neg unchanged]
          rfl
  · simp only [if_neg applies]
    rfl

/-- The offer of an expression replaces it or counts. -/
theorem replacesOrCounts_offerExpr (depth : Nat) (expr : Expr) (rule : Rule) :
    ReplacesOrCounts expr (offerExpr depth expr rule) := by
  refine replacesOrCounts_of_settle rule Replacement.expr
    (fun scope => if rule.applies expr (scope.goDown depth) then
      (·.count rule RuleStatistics.applied) else id)
    (fun replacement start => (start.countReplacement rule).absorb replacement.effects)
    (fun scope => .ruleFailed rule.name (.expression scope.current.fqn))
    (·.count rule RuleStatistics.failed)
    (fun scope => if rule.applies expr (scope.goDown depth) then
      rule.onExpr expr (scope.goDown depth) else .ok none)
    (run_offerExpr depth expr rule) ?_ (by simp)
  intro scope start
  split <;> rfl

/-- How the offer of a block is settled. -/
theorem run_offerBlock (depth : Nat) (block : List Statement) (rule : Rule) (progress : Progress) :
    (offerBlock depth block rule).run progress =
      settle rule block BlockReplacement.statements id
        (fun replacement start => (start.countReplacement rule).absorb replacement.effects)
        (.ruleFailed rule.name .block) id (rule.onBlock block (progress.scope.goDown depth))
        progress := by
  unfold offerBlock
  rw [run_get_bind]
  cases rule.onBlock block (progress.scope.goDown depth) with
  | error reason => rfl
  | ok reply =>
    cases reply with
    | none => rfl
    | some replacement =>
      by_cases unchanged : replacement.statements = block
      · simp only [settle, if_pos unchanged]
        rfl
      · simp only [settle, if_neg unchanged]
        rfl

/-- The offer of a block replaces it or counts. -/
theorem replacesOrCounts_offerBlock (depth : Nat) (block : List Statement) (rule : Rule) :
    ReplacesOrCounts block (offerBlock depth block rule) :=
  replacesOrCounts_of_settle rule BlockReplacement.statements (fun _ => id)
    (fun replacement start => (start.countReplacement rule).absorb replacement.effects)
    (fun _ => .ruleFailed rule.name .block) id (fun scope => rule.onBlock block (scope.goDown depth))
    (run_offerBlock depth block rule)
    (fun _ _ => rfl) (by simp)

/-- How the offer of a field is settled. -/
theorem run_offerField (around : FieldDecl → ClassDecl) (field : FieldDecl) (rule : Rule)
    (progress : Progress) :
    (offerField around field rule).run progress =
      settle rule field FieldReplacement.field id
        (fun replacement start => (start.countReplacement rule).collect replacement.effects)
        (.ruleFailed rule.name (.field field.name)) id
        (rule.onField field (around field) progress.scope) progress := by
  unfold offerField
  rw [run_get_bind]
  cases rule.onField field (around field) progress.scope with
  | error reason => rfl
  | ok reply =>
    cases reply with
    | none => rfl
    | some replacement =>
      by_cases unchanged : replacement.field = field
      · simp only [settle, if_pos unchanged]
        rfl
      · simp only [settle, if_neg unchanged]
        rfl

/-- The offer of a field replaces it or counts. -/
theorem replacesOrCounts_offerField (around : FieldDecl → ClassDecl) (field : FieldDecl)
    (rule : Rule) : ReplacesOrCounts field (offerField around field rule) :=
  replacesOrCounts_of_settle rule FieldReplacement.field (fun _ => id)
    (fun replacement start => (start.countReplacement rule).collect replacement.effects)
    (fun _ => .ruleFailed rule.name (.field field.name)) id (rule.onField field (around field))
    (run_offerField around field rule) (fun _ _ => rfl) (by simp)

/-- To be conservative is a law of visits, whatever the rules are. -/
theorem conservative_visitLaw (rules : List Rule) :
    VisitLaw rules (Conservative Progress.uncounted) where
  toCompositional := conservative_compositional Progress.uncounted
  givesUp _ _ _ _ run := by cases run
  offerExpr depth rule expr _ :=
    conservative_of_replacesOrCounts (replacesOrCounts_offerExpr depth expr rule)
  offerBlock depth rule block _ :=
    conservative_of_replacesOrCounts (replacesOrCounts_offerBlock depth block rule)
  offerField rule around field _ :=
    conservative_of_replacesOrCounts (replacesOrCounts_offerField around field rule)

/-! ## Classes -/

/-- Two passes that have yielded the same look the same, but for their counts, inside a class that
they enter. -/
theorem uncounted_enter_eq (same : start.yielded = progress.yielded)
    (scope : Scope) : (start.enter scope).uncounted = (progress.enter scope).uncounted := by
  have effects : start.effects = progress.effects := congrArg Prod.fst same
  have replacements : start.replacements = progress.replacements := congrArg Prod.snd same
  simp only [Progress.uncounted, Progress.enter, effects, replacements]

/-- Two passes that look the same, but for their counts, still do when they see the same fields. -/
theorem uncounted_seeFields_eq
    (same : start.uncounted = progress.uncounted) (fields : List FieldDecl) :
    (start.seeFields fields).uncounted = (progress.seeFields fields).uncounted := by
  change (start.uncounted.seeFields fields) = (progress.uncounted.seeFields fields)
  rw [same]

/-- The visit of a class succeeds when the visits of its fields, initializers, methods and nested
classes do, each from where the one before has ended. -/
theorem run_visitClass_eq_ok {depth : Nat} {scope : Scope}
    {header : ClassHeader} {fields : List FieldDecl} {methods : List MethodDecl}
    {nested : List ClassDecl} {visited : ClassDecl} :
    (visitClass rules slack depth scope (.decl header fields methods nested)).run progress =
        .ok visited after ↔
      ∃ declared offered initialized seen called last others,
        (visitFields rules (ClassDecl.decl header · methods nested) [] fields).run
          (progress.enter scope) = .ok declared offered ∧
        (declared.mapM (visitInitializer rules slack depth)).run (offered.seeFields declared) =
          .ok initialized seen ∧
        (methods.mapM (visitMethod rules slack depth)).run seen = .ok called last ∧
        (visitNested rules slack (depth - 1) last.scope nested).run last = .ok others after ∧
        visited = .decl header (declareRequested last.requests initialized) called others := by
  rw [visitClass]
  simp only [run_bind_eq_ok, EStateM.run_modify, EStateM.run_get, EStateM.run_pure]
  constructor
  · rintro ⟨_, _, ⟨⟩, declared, offered, runFields, _, _, ⟨⟩, initialized, seen, runInitializers,
      called, last, runMethods, _, _, ⟨⟩, others, _, runNested, ⟨⟩⟩
    exact ⟨declared, offered, initialized, seen, called, last, others, runFields, runInitializers,
      runMethods, runNested, rfl⟩
  · rintro ⟨declared, offered, initialized, seen, called, last, others, runFields,
      runInitializers, runMethods, runNested, rfl⟩
    exact ⟨_, _, rfl, declared, offered, runFields, _, _, rfl, initialized, seen, runInitializers,
      called, last, runMethods, last, last, rfl, others, after, runNested, rfl⟩

/-- A class is visited conservatively if the classes nested in it are. -/
theorem conservative_decl {depth : Nat} {scope : Scope}
    {header : ClassHeader} {fields : List FieldDecl} {methods : List MethodDecl}
    {nested : List ClassDecl}
    (inner : ∀ depth scope,
      Conservative Progress.yielded nested (visitNested rules slack depth scope nested)) :
    Conservative Progress.yielded (ClassDecl.decl header fields methods nested)
      (visitClass rules slack depth scope (.decl header fields methods nested)) := by
  intro progress visited after run
  obtain ⟨declared, offered, initialized, seen, called, last, others, runFields, runInitializers,
    runMethods, runNested, -⟩ := run_visitClass_eq_ok.mp run
  have law := conservative_visitLaw rules
  have visitInitializers (fields : List FieldDecl) :=
    law.mapList (visitInitializer rules slack depth) fields
      fun field _ => law.visitInitializer depth field
  have visitMethods :=
    law.mapList (visitMethod rules slack depth) methods fun method _ => law.visitMethod depth method
  obtain ⟨fieldsGrow, fieldsIdle⟩ := law.visitFields _ _ _ _ _ _ runFields
  obtain ⟨initializersGrow, initializersIdle⟩ := visitInitializers _ _ _ _ runInitializers
  obtain ⟨methodsGrow, methodsIdle⟩ := visitMethods _ _ _ runMethods
  obtain ⟨nestedGrow, nestedIdle⟩ := inner _ _ _ _ _ runNested
  have entered : (progress.enter scope).replacements = progress.replacements := rfl
  have looked : (offered.seeFields declared).replacements = offered.replacements := rfl
  refine ⟨by omega, fun unchanged start same => ?_⟩
  -- No part made a replacement, so each of them is idle.
  have fieldsIdle := fieldsIdle (by omega)
  have initializersIdle := initializersIdle (by omega)
  have methodsIdle := methodsIdle (by omega)
  have nestedIdle := nestedIdle (by omega)
  obtain ⟨rfl, sameOffered⟩ := fieldsIdle.of_run runFields
  obtain ⟨rfl, sameSeen⟩ := initializersIdle.of_run runInitializers
  obtain ⟨rfl, sameLast⟩ := methodsIdle.of_run runMethods
  -- The same visits from `start` end with progress that differs from theirs in the counts only.
  obtain ⟨offered', againFields, sameOffered'⟩ :=
    fieldsIdle (start.enter scope) (uncounted_enter_eq same scope)
  obtain ⟨seen', againInitializers, sameSeen'⟩ :=
    initializersIdle (offered'.seeFields _)
      (uncounted_seeFields_eq (sameOffered'.trans sameOffered.symm) _)
  obtain ⟨last', againMethods, sameLast'⟩ := methodsIdle seen' (sameSeen'.trans sameSeen.symm)
  have alike : last'.uncounted = last.uncounted := sameLast'.trans sameLast.symm
  obtain ⟨stop, againNested, sameStop⟩ :=
    nestedIdle last' (Progress.yielded_eq_of_uncounted_eq alike)
  have sameScope : last'.scope = last.scope := Progress.scope_eq_of_uncounted_eq alike
  have requests : last.requests = [] := by
    rw [Progress.requests_eq_of_uncounted_eq (sameLast.trans sameSeen)]
    exact Progress.requests_eq_of_uncounted_eq sameOffered
  have requests' : last'.requests = [] := by
    rw [Progress.requests_eq_of_uncounted_eq alike, requests]
  have sameYield : last.yielded = progress.yielded := by
    rw [Progress.yielded_eq_of_uncounted_eq (sameLast.trans sameSeen)]
    exact (Progress.yielded_eq_of_uncounted_eq sameOffered :)
  refine ⟨stop, ?_, sameStop.trans sameYield⟩
  refine run_visitClass_eq_ok.mpr ⟨_, offered', _, seen', _, last', _, againFields,
    againInitializers, againMethods, sameScope ▸ againNested, ?_⟩
  rw [requests']
  rfl

mutual

/-- Every class is visited conservatively. -/
theorem conservative_visitClass (rules : List Rule) (depth : Nat) (scope : Scope) :
    ∀ declared : ClassDecl,
      Conservative Progress.yielded declared (visitClass rules slack depth scope declared)
  | .decl _ _ _ nested =>
    conservative_decl fun depth scope => conservative_visitNested rules depth scope nested

/-- The classes nested in a class are visited conservatively. -/
theorem conservative_visitNested (rules : List Rule) (depth : Nat) (scope : Scope) :
    ∀ nested : List ClassDecl,
      Conservative Progress.yielded nested (visitNested rules slack depth scope nested)
  | [] => by
    rw [visitNested]
    exact (conservative_compositional Progress.yielded).pure []
  | first :: rest => by
    rw [visitNested]
    have law := conservative_compositional Progress.yielded
    refine law.bind (· :: rest) (conservative_visitClass rules depth _ first) fun first => ?_
    exact law.map (first :: ·) (conservative_visitNested rules depth scope rest)

end

/-! ## Units -/

/-- Without effects the imports of a unit stay as they are. -/
@[simp] theorem settleImports_empty (unit : CompilationUnit) : settleImports unit {} = unit := rfl

@[simp] theorem classes_addImport (unit : CompilationUnit) (fqn : String) :
    (unit.addImport fqn).classes = unit.classes := by
  unfold CompilationUnit.addImport
  split <;> rfl

@[simp] theorem classes_dropImport (unit : CompilationUnit) (fqn : String) :
    (unit.dropImport fqn).classes = unit.classes := by
  unfold CompilationUnit.dropImport
  split <;> rfl

theorem classes_addImports (names : List String) (unit : CompilationUnit) :
    (names.foldl CompilationUnit.addImport unit).classes = unit.classes := by
  induction names generalizing unit with
  | nil => rfl
  | cons name rest ih =>
    rw [List.foldl_cons, ih, classes_addImport]

theorem classes_dropImports (names : List String) (unit : CompilationUnit) :
    (names.foldl CompilationUnit.dropImport unit).classes = unit.classes := by
  induction names generalizing unit with
  | nil => rfl
  | cons name rest ih =>
    rw [List.foldl_cons, ih, classes_dropImport]

/-- Settling the imports leaves the classes alone. -/
theorem classes_settleImports (unit : CompilationUnit) (effects : Effects) :
    (settleImports unit effects).classes = unit.classes := by
  rw [settleImports, classes_dropImports, classes_addImports]

/-- The visit of a unit succeeds when the visit of its classes does. -/
theorem run_visitUnit_eq_ok {unit visited : CompilationUnit} :
    (visitUnit rules slack unit).run progress = .ok visited after ↔
      ∃ classes,
        (unit.classes.mapM (visitTopLevel rules slack unit.sourcePath)).run progress =
          .ok classes after ∧
        visited = settleImports { unit with classes } after.effects := by
  rw [visitUnit]
  simp only [run_bind_eq_ok, EStateM.run_get, EStateM.run_pure]
  constructor
  · rintro ⟨classes, _, runClasses, _, _, ⟨⟩, ⟨⟩⟩
    exact ⟨classes, runClasses, rfl⟩
  · rintro ⟨classes, runClasses, rfl⟩
    exact ⟨classes, after, runClasses, after, after, rfl, rfl⟩

/-- A pass over a unit that makes no replacement leaves the unit as it is, and does the same again
whatever has been counted by then. -/
theorem idle_visitUnit {unit visited : CompilationUnit} {statistics : Statistics}
    (run : (visitUnit rules slack unit).run { statistics } = .ok visited after)
    (unchanged : after.replacements = 0) :
    visited = unit ∧ ∀ counted : Statistics,
      ∃ stop, (visitUnit rules slack unit).run { statistics := counted } = .ok unit stop ∧
        stop.replacements = 0 := by
  obtain ⟨classes, runClasses, rfl⟩ := run_visitUnit_eq_ok.mp run
  have visitClasses := (conservative_compositional Progress.yielded).mapList
    (visitTopLevel rules slack unit.sourcePath) unit.classes
    fun declared _ => conservative_visitClass rules _ _ declared
  have idle := (visitClasses _ _ _ runClasses).2 unchanged
  obtain ⟨rfl, sameYield⟩ := idle.of_run runClasses
  have noEffects : after.effects = {} := congrArg Prod.fst sameYield
  refine ⟨by rw [noEffects, settleImports_empty], fun counted => ?_⟩
  obtain ⟨stop, again, sameStop⟩ := idle { statistics := counted } rfl
  have noEffects : stop.effects = {} := congrArg Prod.fst sameStop
  refine ⟨stop, run_visitUnit_eq_ok.mpr ⟨unit.classes, again, ?_⟩, congrArg Prod.snd sameStop⟩
  rw [noEffects, settleImports_empty]

end Pass

end LogCalls
