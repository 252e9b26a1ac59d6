import LogCalls.Proofs.Imports.Covered
import Mathlib.Data.List.Nodup

/-! # Imports that share a simple name

Source text names an imported class by its simple name, so two imports with the same simple name are
ambiguous. Imports are added and dropped by their full names, and nothing looks at the simple ones: a
logger that a class is given can share its simple name with a logger of another framework that the unit
goes on to use.

What can be said is where such a pair comes from. The imports after a pass are some of those before it, in
their order, followed by classes that the rules write. So the later one of a pair is always written by a
rule, and an import that the unit has had from the start is one of the pair only if no pass could drop it. -/

namespace LogCalls

variable {replacement : Replacement} {engine : Engine}

/-! ## What rules write -/

namespace Framework

/-- The classes that the declaration of a logger names. -/
def fieldTypes (framework : Framework) : List String :=
  [framework.loggerType, framework.factoryType]

/-- The class of level constants, where log calls are written with them. -/
def callTypes (framework : Framework) : List String :=
  match framework.templateStyle with
  | .indexed => framework.levelType?.toList
  | _ => []

end Framework

namespace Configuration

/-- The classes that a rule with this name writes. -/
def writtenBy (configuration : Configuration) : String → List String
  | "parameterize-messages" => Framework.jul.callTypes
  | "print-stack-trace" | "console" | "system-print" =>
    configuration.target.fieldTypes ++ configuration.target.callTypes
  | "migrate" => configuration.target.fieldTypes ++ configuration.target.levelType?.toList
  | _ => []

/-- The classes that the rules of the configuration write. -/
def writtenTypes (configuration : Configuration) : List String :=
  configuration.rules.flatMap configuration.writtenBy

end Configuration

/-- The rule asks for imports of these classes only. -/
abbrev Rule.Writes (rule : Rule) (written : List String) : Prop :=
  rule.Replaces (fun _ _ replacement => replacement.effects.addImports ⊆ written)
    (fun _ _ replacement => replacement.effects.addImports ⊆ written)
    (fun _ _ _ replacement => replacement.effects.addImports ⊆ written)

/-- Merged effects import what either imports. -/
theorem Effects.addImports_merge_subset {effects later : Effects} {written : List String}
    (first : effects.addImports ⊆ written) (second : later.addImports ⊆ written) :
    (effects.merge later).addImports ⊆ written :=
  fun _ member => (mem_addImports_merge.mp member).elim (first ·) (second ·)

/-- An emitted call imports the framework's types. -/
theorem LogEvent.addImports_emit (event : LogEvent) (target : Framework) (policy : SeverityPolicy)
    (receiver : Expr) :
    (event.emit target policy receiver).effects.addImports ⊆ target.callTypes := by
  unfold emit
  split
  · exact List.nil_subset _
  · exact List.nil_subset _
  · rename_i indexed
    have level : target.callTypes = [target.levelType?.getD julLevelType] := by
      revert indexed
      cases target <;> decide
    rw [level]
    unfold emitIndexed
    dsimp only
    split
    · exact List.Subset.refl _
    · split
      · exact List.nil_subset _
      · exact List.Subset.refl _

/-- A level check imports the level type at most. -/
theorem Framework.addImports_emitCheck? {target : Framework} {severity : Severity}
    {policy : SeverityPolicy} {receiver : Expr}
    (made : target.emitCheck? severity policy receiver = some replacement) :
    replacement.effects.addImports ⊆ target.levelType?.toList := by
  obtain ⟨_, _, -, ⟨-, effects⟩ | ⟨levelType, _, leveled, -, effects⟩, -⟩ := emitCheck?_cases made
  · rw [effects]
    exact List.nil_subset _
  · rw [effects, leveled]
    exact List.Subset.refl _

/-- A logger field imports its framework's types. -/
theorem FieldRequest.imports_subset (request : FieldRequest) :
    request.imports ⊆ request.framework.fieldTypes := by
  unfold imports Framework.fieldTypes
  dsimp only
  split <;> simp

namespace Redirect

variable {settings : Redirect}

/-- A redirected call is written with a level at most, and the logger that it may need with its type
and its accessor. -/
theorem addImports_emit? {event : LogEvent} {scope : ClassScope}
    (emitted : settings.emit? event scope = some replacement) :
    replacement.effects.addImports ⊆ settings.target.fieldTypes ++ settings.target.callTypes := by
  obtain ⟨choice, chosen, -, -, imports⟩ := emit?_cases emitted
  intro name member
  rw [List.mem_append]
  obtain written | ⟨request, asked, needed⟩ := (imports name).mp member
  · exact .inr (event.addImports_emit _ _ _ written)
  · have framework : request.framework = settings.target := by
      obtain ⟨_, -, rfl⟩ | ⟨-, -, -, rfl⟩ := ClassScope.chooseLogger?_cases chosen
      · cases asked
      · cases asked
        rfl
    exact .inl (framework ▸ request.imports_subset needed)

/-- Merged pairs import the target's types only. -/
theorem addImports_mergePairs (scope : ClassScope) (block : List Statement) :
    (settings.mergePairs scope block).2.addImports ⊆
      settings.target.fieldTypes ++ settings.target.callTypes := by
  fun_induction mergePairs settings scope block with
  | case1 scope first second rest replacement found later statements effects visited =>
    rename_i ih
    obtain ⟨event, -, emitted⟩ := Option.bind_eq_some_iff.mp found
    rw [visited] at ih
    exact Effects.addImports_merge_subset (addImports_emit? emitted) ih
  | case2 scope first second rest unmerged statements effects visited ih =>
    rw [visited] at ih
    exact ih
  | case3 => exact List.nil_subset _

end Redirect

/-- A migrated call imports the level type at most. -/
theorem Migrate.addImports_replace? {settings : Migrate} {expr : Expr} {scope : Scope}
    (made : settings.replace? expr scope = some replacement) :
    replacement.effects.addImports ⊆ settings.target.levelType?.toList := by
  have calls (target : Framework) : target.callTypes ⊆ target.levelType?.toList := by
    cases target <;> decide
  obtain ⟨use, field, -, -, -, written⟩ := replace?_cases made
  obtain ⟨receiver, -, -, ⟨call, -, -, imports⟩ | ⟨check, made, -, wrote, -, imports⟩⟩ :=
    emit?_cases written
  · rw [imports]
    exact List.Subset.trans (LogEvent.addImports_emit _ _ _ _) (calls settings.target)
  · rw [imports]
    exact Framework.addImports_emitCheck? wrote

/-- A parameterized call imports types of JUL. -/
theorem Parameterize.addImports_replace? {settings : Parameterize} {expr : Expr}
    (made : settings.replace? expr = some replacement) :
    replacement.effects.addImports ⊆ Framework.jul.callTypes := by
  have indexed (target : Framework) : target.callTypes ⊆ Framework.jul.callTypes := by
    cases target <;> decide
  obtain ⟨call, framework, -, -, rfl⟩ := replace?_cases made
  exact List.Subset.trans (LogEvent.addImports_emit _ _ _ _) (indexed framework)

/-! ### All rules -/

namespace Rule.Writes

/-- A rule for expressions that asks for nothing. -/
theorem ofAsksNothing {rule : Rule} {written : List String}
    {replace? : Expr → Scope → Option Replacement} (isForExprs : rule.IsForExprs replace?)
    (nothing : ∀ expr scope replacement, replace? expr scope = some replacement →
      replacement.effects.AsksNothing) : rule.Writes written := by
  refine .ofExpr isForExprs fun expr scope replacement _ made => ?_
  rw [(nothing expr scope replacement made).addImports]
  exact List.nil_subset written

/-- The console rule writes types of the target. -/
theorem console (settings : Redirect) :
    settings.consoleRule.Writes (settings.target.fieldTypes ++ settings.target.callTypes) where
  onExpr _ made := by
    obtain ⟨call, -, -, emitted⟩ := Redirect.replaceConsole?_cases (Except.ok.inj made)
    exact Redirect.addImports_emit? emitted
  onBlock {block scope replacement} made := by
    obtain ⟨-, rfl⟩ := Redirect.replaceBlock?_cases (Except.ok.inj made)
    exact Redirect.addImports_mergePairs scope.current block
  onField made := by cases made

/-- So does the stack trace rule. -/
theorem stackTrace (settings : Redirect) :
    settings.stackTraceRule.Writes (settings.target.fieldTypes ++ settings.target.callTypes) :=
  .ofExpr settings.isForExprs_stackTraceRule fun _ _ _ _ made => by
    obtain ⟨call, -, -, emitted⟩ := Redirect.replaceTrace?_cases made
    exact Redirect.addImports_emit? emitted

/-- So does a migration. -/
theorem migrate (settings : Migrate) :
    settings.rule.Writes (settings.target.fieldTypes ++ settings.target.levelType?.toList) where
  onExpr _ made :=
    List.subset_append_of_subset_right _ (Migrate.addImports_replace? (Except.ok.inj made))
  onBlock made := by cases made
  onField made := by
    obtain ⟨_, _, _, -, -, -, -, -, -, -, -, imports⟩ :=
      Migrate.replaceField?_cases (Except.ok.inj made)
    intro name member
    refine List.mem_append_left _ ?_
    rw [Framework.fieldTypes, List.mem_pair]
    exact ((imports name).mp member).symm

/-- Making a logger private writes no import. -/
theorem privateLogger {written : List String} : PrivateLogger.rule.Writes written where
  onExpr _ made := by cases made
  onBlock made := by cases made
  onField made := by
    obtain ⟨-, rfl⟩ := PrivateLogger.replaceField?_cases (Except.ok.inj made)
    exact List.nil_subset written

end Rule.Writes

/-- **Every rule writes the classes of its name.** -/
theorem Configuration.writes_of_buildRule {configuration : Configuration} {name : String} {rule : Rule}
    (built : configuration.buildRule name = .ok rule) :
    rule.Writes (configuration.writtenBy name) := by
  cases builds_of_buildRule built with
  | @parameterize settings parsed =>
    exact .ofExpr settings.isForExprs_rule fun _ _ _ _ => Parameterize.addImports_replace?
  | stackTrace => exact .stackTrace configuration.redirect
  | console => exact .console configuration.redirect
  | print =>
    exact .redirect (Rule.Writes.console configuration.redirect)
      (Rule.Writes.stackTrace configuration.redirect)
  | migrate => exact .migrate configuration.migrate
  | enclosingClass =>
    exact .ofAsksNothing EnclosingClass.isForExprs_rule
      fun _ _ _ => Tariff.asksNothing_enclosingClass
  | completeException =>
    exact .ofAsksNothing CompleteException.isForExprs_rule
      fun _ _ _ => Tariff.asksNothing_completeException
  | @changeLevel settings given =>
    exact .ofAsksNothing settings.isForExprs_rule fun _ _ _ => Tariff.asksNothing_changeLevel
  | levelMethod =>
    exact .ofAsksNothing LevelMethod.isForExprs_rule fun _ _ _ => Tariff.asksNothing_levelMethod
  | constantMessage =>
    exact .ofAsksNothing ConstantMessage.isForExprs_rule
      fun _ _ _ => Tariff.asksNothing_constantMessage
  | spreadArray =>
    exact .ofAsksNothing SpreadArray.isForExprs_rule fun _ _ _ => Tariff.asksNothing_spreadArray
  | privateLogger => exact .privateLogger

/-- Every rule of a configuration writes its types. -/
theorem Engine.writes_of_ofConfiguration {configuration : Configuration}
    (built : ofConfiguration configuration = .ok engine) :
    ∀ rule ∈ engine.rules, rule.Writes configuration.writtenTypes := by
  intro rule member
  obtain ⟨name, listed, made⟩ := exists_of_mem_ofConfiguration built member
  have writes := Configuration.writes_of_buildRule made
  have written : configuration.writtenBy name ⊆ configuration.writtenTypes :=
    fun _ member => List.mem_flatMap.mpr ⟨name, listed, member⟩
  exact ⟨fun applies made => List.Subset.trans (writes.onExpr applies made) written,
    fun made => List.Subset.trans (writes.onBlock made) written,
    fun made => List.Subset.trans (writes.onField made) written⟩

/-! ## What a pass collects -/

namespace Pass

variable {α β : Type} {rules : List Rule} {written : List String}

/-- The action asks for imports of these classes only, in addition to what has been collected. -/
def CollectsOnly (written : List String) (action : PassM α) : Prop :=
  ∀ progress result after, action.run progress = .ok result after →
    progress.effects.addImports ⊆ written → after.effects.addImports ⊆ written

/-- Returning a result collects nothing. -/
theorem collectsOnly_pure (result : α) : CollectsOnly written (pure result) := by
  intro progress _ after run collected
  cases run
  exact collected

/-- Two visits collect what each collects. -/
theorem collectsOnly_bind {visit : PassM α} {next : α → PassM β} (first : CollectsOnly written visit)
    (second : ∀ result, CollectsOnly written (next result)) :
    CollectsOnly written (visit >>= next) := by
  intro progress result after run collected
  obtain ⟨value, middle, runFirst, runNext⟩ := run_bind_eq_ok.mp run
  exact second value _ _ _ runNext (first _ _ _ runFirst collected)

/-- An offer collects what the replacement asks for. -/
theorem Offering.Lawful.collectsOnly {ρ : Type} {kind : Offering α ρ} (lawful : kind.Lawful)
    {rule : Rule} {node : α}
    (writes : ∀ scope replacement, kind.change? rule node scope = .ok (some replacement) →
      (kind.effects replacement).addImports ⊆ written) :
    CollectsOnly written (kind.offer node rule) := by
  intro progress visited after run collected
  obtain ⟨-, -, same⟩ | ⟨replacement, change, -, same⟩ := lawful.run_ok run
  · rw [← Progress.effects_eq_of_uncounted_eq same]
    exact collected
  · rw [← Progress.effects_eq_of_uncounted_eq same, lawful.addImports_replacing]
    exact Effects.addImports_merge_subset collected (writes _ _ change)

/-- To collect no other imports is a law for rules that write these classes only. -/
theorem collectsOnly_actionLaw (writes : ∀ rule ∈ rules, rule.Writes written) :
    ActionLaw rules (CollectsOnly written) where
  pure := collectsOnly_pure
  bind := collectsOnly_bind
  givesUp _ _ _ run := by cases run
  offerExpr depth rule expr member := by
    refine (lawful_offeringExprs depth).collectsOnly fun scope replacement change => ?_
    obtain ⟨made, -⟩ := Rule.map_filter_eq_ok change
    split at made
    · rename_i applies
      exact (writes rule member).onExpr applies made
    · cases made
  offerBlock depth rule block member :=
    (lawful_offeringBlocks depth).collectsOnly fun _ _ change =>
      (writes rule member).onBlock (Rule.map_filter_eq_ok change).1
  offerField rule around field member :=
    (lawful_offeringFields around).collectsOnly fun _ _ change =>
      (writes rule member).onField (Rule.map_filter_eq_ok change).1
  get progress _ _ run := by
    cases run
    exact id
  enter _ _ _ _ run := by
    cases run
    exact id
  seeFields _ _ _ _ run := by
    cases run
    exact id

end Pass

/-! ## Imports -/

namespace CompilationUnit

/-- The classes that the unit imports. -/
def importedTypes (unit : CompilationUnit) : List String :=
  (unit.imports.filter fun entry => !entry.isStatic).map Import.typeName

/-- A unit has the imports that it lists. -/
theorem hasImport_iff {unit : CompilationUnit} {fqn : String} :
    unit.hasImport fqn = true ↔ fqn ∈ unit.importedTypes := by
  simp [hasImport, importedTypes, and_assoc]

end CompilationUnit

/-- Imports, and what passes make of them that write these classes: some of the imports, in their order,
and then written classes. No class comes to be imported twice. -/
structure Amended (written before after : List String) : Prop where
  split : ∃ kept added, after = kept ++ added ∧ kept.Sublist before ∧ added ⊆ written
  nodup : before.Nodup → after.Nodup

namespace Amended

variable {written before middle after : List String} {fqn : String}

/-- Dropping imports amends them. -/
theorem ofSublist (kept : after.Sublist before) : Amended written before after :=
  ⟨⟨after, [], (List.append_nil after).symm, kept, List.nil_subset written⟩, kept.nodup⟩

/-- Amendments follow each other. -/
theorem trans (first : Amended written before middle) (second : Amended written middle after) :
    Amended written before after := by
  obtain ⟨early, added, rfl, fromBefore, writtenFirst⟩ := first.split
  obtain ⟨kept, late, rfl, fromMiddle, writtenLast⟩ := second.split
  -- What is kept of both parts is kept in two parts, and the second of them is written.
  obtain ⟨remaining, stays, rfl, ofEarly, ofAdded⟩ := List.sublist_append_iff.mp fromMiddle
  refine ⟨⟨remaining, stays ++ late, List.append_assoc .., ofEarly.trans fromBefore, ?_⟩,
    second.nodup ∘ first.nodup⟩
  exact List.append_subset.mpr ⟨List.Subset.trans ofAdded.subset writtenFirst, writtenLast⟩

/-- What is imported in the end was imported before, or is written. -/
theorem mem (amended : Amended written before after) (member : fqn ∈ after) :
    fqn ∈ before ∨ fqn ∈ written := by
  obtain ⟨kept, added, rfl, fromBefore, isWritten⟩ := amended.split
  exact (List.mem_append.mp member).imp (fromBefore.subset ·) (isWritten ·)

end Amended

namespace CompilationUnit

variable {written : List String} {unit : CompilationUnit} {fqn : String}

/-- Adding a written type is an amendment. -/
theorem amended_addImport (isWritten : fqn ∈ written) :
    Amended written unit.importedTypes (unit.addImport fqn).importedTypes := by
  unfold addImport
  split
  · rename_i lacks
    have isNew : fqn ∉ unit.importedTypes := by
      rw [← hasImport_iff]
      simp only [lacksImport, Bool.and_eq_true, Bool.not_eq_true'] at lacks
      simp [lacks.2]
    have appended : importedTypes { unit with imports := unit.imports ++ [{ typeName := fqn }] } =
        unit.importedTypes ++ [fqn] := by
      simp [importedTypes]
    rw [appended]
    refine ⟨⟨_, _, rfl, List.Sublist.refl _, List.cons_subset.mpr ⟨isWritten, List.nil_subset _⟩⟩,
      fun distinct => ?_⟩
    rw [List.nodup_append]
    refine ⟨distinct, List.nodup_singleton fqn, fun name member other isLast => ?_⟩
    rintro rfl
    exact isNew (List.mem_singleton.mp isLast ▸ member)
  · exact .ofSublist (List.Sublist.refl _)

/-- Only an unused import is dropped. -/
theorem importedTypes_dropImport (unit : CompilationUnit) (fqn : String) :
    (unit.dropImport fqn).importedTypes =
      if unit.hasUnusedImport fqn then unit.importedTypes.filter (· != fqn)
      else unit.importedTypes := by
  unfold dropImport
  split
  · simp only [importedTypes, List.filter_map, List.filter_filter]
    refine congrArg _ (List.filter_congr fun entry _ => ?_)
    cases entry.isStatic <;> simp
  · rfl

/-- Dropping a list of imports is an amendment. -/
theorem amended_dropImports (names : List String) (unit : CompilationUnit) :
    Amended written unit.importedTypes (names.foldl dropImport unit).importedTypes := by
  induction names generalizing unit with
  | nil => exact .ofSublist (List.Sublist.refl _)
  | cons first rest ih =>
    refine .trans (.ofSublist ?_) (ih _)
    rw [importedTypes_dropImport]
    split
    · exact List.filter_sublist
    · exact List.Sublist.refl _

/-- So is adding a list of written types. -/
theorem amended_addImports (names : List String) (unit : CompilationUnit) (writes : names ⊆ written) :
    Amended written unit.importedTypes (names.foldl addImport unit).importedTypes := by
  induction names generalizing unit with
  | nil => exact .ofSublist (List.Sublist.refl _)
  | cons first rest ih =>
    obtain ⟨isWritten, others⟩ := List.cons_subset.mp writes
    exact (amended_addImport isWritten).trans (ih _ others)

/-- An import that is to be dropped stays only if its class is still named. -/
theorem mem_references_of_dropImports {names : List String} (released : fqn ∈ names)
    (unit : CompilationUnit) (imported : fqn ∈ (names.foldl dropImport unit).importedTypes) :
    fqn ∈ unit.references := by
  induction names generalizing unit with
  | nil => cases released
  | cons first rest ih =>
    obtain rfl | later := List.mem_cons.mp released
    · -- The other names are dropped after it, and bring nothing back.
      have stays : fqn ∈ (unit.dropImport fqn).importedTypes := by
        simpa using (@amended_dropImports [] rest _).mem imported
      by_contra unnamed
      rw [importedTypes_dropImport] at stays
      split at stays
      · simp at stays
      · rename_i used
        simp [hasUnusedImport, hasImport_iff, stays, unnamed] at used
    · have named := ih later _ imported
      rwa [references, Pass.classes_dropImport] at named

end CompilationUnit

/-! ## Passes -/

namespace Pass

variable {rules : List Rule} {slack : Nat} {written : List String}
  {unit visited : CompilationUnit} {statistics : Statistics} {after : Progress}

/-- **A pass amends imports.** -/
theorem amended_visitUnit (writes : ∀ rule ∈ rules, rule.Writes written)
    (run : (visitUnit rules slack unit).run { statistics } = .ok visited after) :
    Amended written unit.importedTypes visited.importedTypes := by
  have collected : after.effects.addImports ⊆ written :=
    (collectsOnly_actionLaw writes).visitUnit unit _ _ _ run (List.nil_subset written)
  obtain ⟨classes, -, rfl⟩ := run_visitUnit_eq_ok.mp run
  exact (CompilationUnit.amended_addImports _ { unit with classes } collected).trans
    (CompilationUnit.amended_dropImports _ _)

/-- An import that a pass asks to drop stays only if the class is named in what the pass makes. -/
theorem mem_references_of_visitUnit
    (run : (visitUnit rules slack unit).run { statistics } = .ok visited after) {fqn : String}
    (released : fqn ∈ after.effects.removeImports) (imported : fqn ∈ visited.importedTypes) :
    fqn ∈ visited.references := by
  obtain ⟨classes, -, rfl⟩ := run_visitUnit_eq_ok.mp run
  have named := CompilationUnit.mem_references_of_dropImports released _ imported
  rw [CompilationUnit.references, Pass.classes_addImports] at named
  rwa [CompilationUnit.references, Pass.classes_settleImports]

end Pass

/-! ## Engines -/

namespace Engine

/-- No pass on the way from the unit to the outcome could drop the import of the class: whenever one asks
for it, the class is still named in what the pass has made. -/
def Retains (engine : Engine) (unit outcome : CompilationUnit) (fqn : String) : Prop :=
  ∀ before visited statistics after, engine.Reaches unit before →
    (Pass.visitUnit engine.rules engine.slack before).run { statistics } = .ok visited after →
    engine.Reaches visited outcome → fqn ∈ after.effects.removeImports → fqn ∈ visited.references

/-- A run of passes amends the imports. -/
theorem amended_of_reaches {written : List String}
    (writes : ∀ rule ∈ engine.rules, rule.Writes written) {unit visited : CompilationUnit}
    (reaches : engine.Reaches unit visited) :
    Amended written unit.importedTypes visited.importedTypes := by
  induction reaches with
  | refl => exact .ofSublist (List.Sublist.refl _)
  | tail _ step ih =>
    obtain ⟨statistics, count, passed⟩ := step
    obtain ⟨after, run, -⟩ := cycle_eq_ok.mp passed
    exact ih.trans (Pass.amended_visitUnit writes run)

/-- An import that is in the outcome and that no rule writes is retained. -/
theorem retains_of_mem {written : List String}
    (writes : ∀ rule ∈ engine.rules, rule.Writes written) {unit outcome : CompilationUnit}
    {fqn : String} (imported : fqn ∈ outcome.importedTypes) (unwritten : fqn ∉ written) :
    engine.Retains unit outcome fqn := by
  intro before visited statistics after _ run reaches released
  have visitedImports := (amended_of_reaches writes reaches).mem imported
  exact Pass.mem_references_of_visitUnit run released (visitedImports.resolve_right unwritten)

/-- **Which imports clash.** Whatever rules a configuration names, if the imports of a unit have different
simple names, then two imports of the outcome share theirs only if they are of different classes, not both
of them imported by the unit, the later one is written by a rule, and the earlier one is written by a rule
or is an import of the unit that no pass could drop. -/
theorem clash_transform (configuration : Configuration) (engine : Engine) (statistics : Statistics)
    (unit : CompilationUnit) (outcome : Outcome)
    (built : ofConfiguration configuration = .ok engine)
    (distinct : (unit.importedTypes.map simpleName).Nodup)
    (converged : (engine.transform statistics unit).1 = .ok outcome) :
    outcome.unit.importedTypes.Pairwise fun first second => simpleName first = simpleName second →
      first ≠ second ∧ ¬(first ∈ unit.importedTypes ∧ second ∈ unit.importedTypes) ∧
      second ∈ configuration.writtenTypes ∧
      (first ∈ configuration.writtenTypes ∨
        first ∈ unit.importedTypes ∧ engine.Retains unit outcome.unit first) := by
  have writes := writes_of_ofConfiguration built
  have amended := amended_of_reaches writes (reaches_of_transform converged)
  obtain ⟨kept, added, split, fromUnit, written⟩ := amended.split
  have different : (kept ++ added).Nodup := split ▸ amended.nodup (.of_map _ distinct)
  have notBoth {first second : String} (apart : first ≠ second)
      (same : simpleName first = simpleName second) :
      ¬(first ∈ unit.importedTypes ∧ second ∈ unit.importedTypes) := by
    rintro ⟨hasFirst, hasSecond⟩
    exact apart (List.inj_on_of_nodup_map distinct hasFirst hasSecond same)
  obtain ⟨onKept, onAdded, across⟩ := List.pairwise_append.mp different
  rw [split, List.pairwise_append]
  refine ⟨onKept.imp_of_mem ?_, onAdded.imp_of_mem ?_, ?_⟩
  · -- Imports that are kept had different simple names in the unit.
    intro first second hasFirst hasSecond apart same
    exact absurd ⟨fromUnit.subset hasFirst, fromUnit.subset hasSecond⟩ (notBoth apart same)
  · intro first second hasFirst hasSecond apart same
    exact ⟨apart, notBoth apart same, written hasSecond, .inl (written hasFirst)⟩
  · intro first hasFirst second hasSecond same
    have apart := across first hasFirst second hasSecond
    refine ⟨apart, notBoth apart same, written hasSecond, ?_⟩
    by_cases byRule : first ∈ configuration.writtenTypes
    · exact .inl byRule
    · have imported : first ∈ outcome.unit.importedTypes := split ▸ List.mem_append_left _ hasFirst
      exact .inr ⟨fromUnit.subset hasFirst, retains_of_mem writes imported byRule⟩

/-- One logger of a class migrates, and another of the same framework has no initializer and stays. Its
class is named after every pass, so that no pass drops the import. -/
theorem clash_transform_migrate :
    let configuration : Configuration := { target := .slf4j, rules := ["migrate"] }
    let engine : Engine := { rules := [configuration.migrate.rule], maxCycles := 10 }
    let old := "org.apache.log4j.Logger"
    let audit : FieldDecl := { name := "audit", type := .named old }
    let declared (logger factory : String) : ClassDecl :=
      .decl { name := "C", fqn := "p.C" }
        [{ name := "log", type := .named logger,
           initializer := some (.staticCall factory "getLogger" [.classLiteral "p.C"]
             (.named logger)) }, audit]
        [{ name := "m", body := [.expression (.call (.ident "log" (.named logger)) "info"
          [.string "a"] (.onInstance logger "info"))] }] []
    let unit : CompilationUnit := {
      package := some "p", imports := [{ typeName := old }], classes := [declared old old] }
    let outcome : Outcome := {
      unit := {
        package := some "p"
        imports := [{ typeName := old }, { typeName := "org.slf4j.LoggerFactory" },
          { typeName := "org.slf4j.Logger" }]
        classes := [declared "org.slf4j.Logger" "org.slf4j.LoggerFactory"] }
      summary := { unitsChanged := 1, replacements := 2, cycles := 2 } }
    ofConfiguration configuration = .ok engine ∧ (unit.importedTypes.map simpleName).Nodup ∧
      (engine.transform {} unit).1 = .ok outcome ∧ engine.Retains unit outcome.unit old := by
  intro configuration engine old audit declared unit outcome
  have built : ofConfiguration configuration = .ok engine := by
    have step : ofConfiguration configuration =
        .ok { rules := Rule.byPriority engine.rules, maxCycles := 10 } := rfl
    rw [step, Rule.byPriority, List.mergeSort_singleton]
  have distinct : (unit.importedTypes.map simpleName).Nodup := by decide
  have converged : (engine.transform {} unit).1 = .ok outcome := by decide
  have clashes := clash_transform configuration engine {} unit outcome built distinct converged
  have withTarget := (List.pairwise_cons.mp clashes).1 "org.slf4j.Logger" (by decide) (by decide)
  have unwritten : old ∉ configuration.writtenTypes := by decide
  exact ⟨built, distinct, converged, (withTarget.2.2.2.resolve_left unwritten).2⟩

/-- A class that uses the logger of one framework is given the logger of another. -/
theorem ambiguous_transform_console :
    let configuration : Configuration := { target := .slf4j, rules := ["console"] }
    let engine : Engine := { rules := [configuration.redirect.consoleRule], maxCycles := 10 }
    let audit : FieldDecl := { name := "audit", type := .named "java.util.logging.Logger" }
    let declared (fields : List FieldDecl) (call : Expr) : ClassDecl :=
      .decl { name := "C", fqn := "C" } fields [{ name := "m", body := [.expression call] }] []
    let unit : CompilationUnit := {
      imports := [{ typeName := "java.util.logging.Logger" }]
      classes := [declared [audit] (.call
        (.fieldAccess (.typeRef ClassName.system) "out" (some (.named ClassName.printStream)))
        "println" [.string "a"] (.onInstance ClassName.printStream "println"))] }
    let outcome : Outcome := {
      unit := {
        imports := [{ typeName := "java.util.logging.Logger" }, { typeName := "org.slf4j.Logger" },
          { typeName := "org.slf4j.LoggerFactory" }]
        classes := [declared
          [FieldRequest.declaration { ownerType := "C", fieldName := "logger", framework := .slf4j },
            audit]
          (.call (.ident "logger" (.named "org.slf4j.Logger")) "info" [.string "a"]
            (.onInstance "org.slf4j.Logger" "info"))] }
      summary := { unitsChanged := 1, replacements := 1, cycles := 2 } }
    ofConfiguration configuration = .ok engine ∧ (unit.importedTypes.map simpleName).Nodup ∧
      (engine.transform {} unit).1 = .ok outcome ∧
      ¬(outcome.unit.importedTypes.map simpleName).Nodup := by
  intro configuration engine audit declared unit outcome
  refine ⟨?_, by decide, by decide, by decide⟩
  have step : ofConfiguration configuration =
      .ok { rules := Rule.byPriority engine.rules, maxCycles := 10 } := rfl
  rw [step, Rule.byPriority, List.mergeSort_singleton]

end Engine

end LogCalls
