import LogCalls.Proofs.Migration.Runs
import LogCalls.Proofs.Order.Redirect

/-! # Loggers and local variables

A new call has the bare name of a logger as its receiver, and a local variable of that name would take
the place of the logger. A field moves to another framework only if no local variable hides it in its
class, and passes bring no names into the scope of a site. What is printed is sent to the logger of the
class by its bare name, wherever that stands. -/

namespace LogCalls

/-! ## Names in scope -/

namespace Site

/-- The names in scope at each site of the second list are those at some site of the first. -/
def KeepsNames (before after : List Site) : Prop :=
  ∀ site ∈ after, ∃ other ∈ before, other.SameNames site.toPlace

namespace KeepsNames

variable {before after others more : List Site}

theorem refl (sites : List Site) : KeepsNames sites sites := fun site member =>
  ⟨site, member, rfl, rfl⟩

theorem append (first : KeepsNames before after) (second : KeepsNames others more) :
    KeepsNames (before ++ others) (after ++ more) := by
  refine List.forall_mem_append.mpr ⟨fun site member => ?_, fun site member => ?_⟩
  · obtain ⟨other, found, same⟩ := first site member
    exact ⟨other, List.mem_append_left _ found, same⟩
  · obtain ⟨other, found, same⟩ := second site member
    exact ⟨other, List.mem_append_right _ found, same⟩

theorem trans (first : KeepsNames before after) (second : KeepsNames after more) :
    KeepsNames before more := by
  intro site member
  obtain ⟨middle, found, same⟩ := second site member
  obtain ⟨other, start, also⟩ := first middle found
  exact ⟨other, start, also.fields.trans same.fields, also.locals.trans same.locals⟩

/-- A name that is hidden nowhere before is hidden nowhere after. -/
theorem shows {name : String} (keeps : KeepsNames before after)
    (shows : ∀ site ∈ before, site.Shows name) : ∀ site ∈ after, site.Shows name := by
  intro site member visible
  obtain ⟨other, found, same⟩ := keeps site member
  rw [← same.locals]
  exact shows other found (same.fields ▸ visible)

end KeepsNames

end Site

namespace Migrate

variable {settings : Migrate}

/-- What is asked of the names in scope at the sites of an expression is asked of its parts. -/
theorem distributes_names (asks : List String → List String → Prop) (place : Place)
    (here : asks place.fields place.locals) :
    Expr.Distributes fun expr => ∀ site ∈ expr.sites place, asks site.fields site.locals := by
  -- The same names are in scope at all operands of an expression.
  have moved (first second : Place) (same : first.SameNames second) {expr : Expr}
      (each : ∀ site ∈ expr.sites first, asks site.fields site.locals) :
      ∀ site ∈ expr.sites second, asks site.fields site.locals := by
    intro site member
    obtain ⟨other, found, -, names⟩ :=
      exists_of_forall₂ (expr.forall₂_sites Place.steady_sameNames.toSteady same) member
    rw [← names.fields, ← names.locals]
    exact each other found
  exact Expr.distributes_sites ⟨moved place.inner place ⟨rfl, rfl⟩, moved place place.inner ⟨rfl, rfl⟩⟩
    ⟨moved place.bare place ⟨rfl, rfl⟩, moved place place.bare ⟨rfl, rfl⟩⟩ (fun _ => here) (fun _ => here)
    (fun _ _ => here) fun _ => here

/-- A pass brings no names into the scope of an expression. -/
theorem siteLaw_of_names (settings : Migrate) (scope : Scope) (fields : List String) :
    SiteLaw settings scope fields Site.KeepsNames where
  nil := .refl []
  append := .append
  deep _ _ _ := .refl _
  node {place count before rebuilt} _ _ inner := by
    rw [Expr.sites_eq_cons place before]
    have top : (⟨place, before⟩ : Site) ∈ ⟨place, before⟩ :: before.parts place := List.mem_cons_self
    have inParts : ∀ site ∈ rebuilt.parts place,
        ∃ other ∈ ⟨place, before⟩ :: before.parts place, other.SameNames site.toPlace := by
      intro site member
      obtain ⟨other, found, same⟩ := inner site member
      exact ⟨other, List.mem_cons_of_mem _ found, same⟩
    obtain ⟨-, same⟩ | ⟨select, name, arguments, method, receiver, newName, others, written, field,
      rfl, same, -, -, carries⟩ := settings.carry_cases scope rebuilt
    · rw [same, Expr.sites_eq_cons]
      exact List.forall_mem_cons.mpr ⟨⟨_, top, rfl, rfl⟩, inParts⟩
    · -- The new arguments are made of the old ones, of texts and of constants.
      let asks (fields locals : List String) : Prop :=
        ∃ other ∈ (⟨place, before⟩ : Site) :: before.parts place,
          other.fields = fields ∧ other.locals = locals
      have here : asks place.fields place.locals := ⟨_, top, rfl, rfl⟩
      have onParts := carries.forall_parts (distributes_names asks place.argument here)
        (fun _ _ _ => List.forall_mem_cons.mpr ⟨here, List.forall_mem_singleton.mpr here⟩) here
        fun site member => by
          obtain ⟨other, found, names⟩ := inParts site member
          exact ⟨other, found, names.fields, names.locals⟩
      rw [same, Expr.sites_eq_cons]
      refine List.forall_mem_cons.mpr ⟨⟨_, top, rfl, rfl⟩, fun site member => ?_⟩
      obtain ⟨other, found, fields, locals⟩ := onParts site member
      exact ⟨other, found, fields, locals⟩

/-- An initializer that is written anew has the names in scope that the old one has. -/
theorem keepsNames_carryField (scope : Scope) (declared : ClassDecl) (field : FieldDecl) (place : Place) :
    Site.KeepsNames (field.sites place) ((settings.carryField scope declared field).sites place) := by
  obtain same | ⟨initial, factory, initialized, recognized, -, same⟩ :=
    settings.carryField_cases scope declared field
  · rw [same]
    exact .refl _
  · rw [same, FieldDecl.sites, FieldDecl.sites, initialized]
    intro site member
    have renewed := renewed_of_mem recognized settings.target _ place.initial site member
    have top := initial.mem_sites_self place.initial
    -- New sites have the names in scope that the whole initializer has.
    cases renewed with
    | kept found _ names => exact ⟨_, found, names⟩
    | typeRef _ names => exact ⟨_, top, names⟩
    | classLiteral _ names => exact ⟨_, top, names⟩
    | factory => exact ⟨_, top, rfl, rfl⟩
    | literalName => exact ⟨_, top, rfl, rfl⟩
    | className => exact ⟨_, top, rfl, rfl⟩

/-- **A pass brings no names into the scope of a site.** -/
theorem classLaw_of_names : ClassLaw settings (fun _ _ => True) (fun _ => True) Site.KeepsNames
    Site.KeepsNames Site.KeepsNames where
  nil := .refl []
  append := .append
  members _ := settings.siteLaw_of_names _ _
  unoffered := .refl
  offeredAppend := .append
  field start declared field _ := keepsNames_carryField start declared field _
  compose := .trans
  nested _ _ _ _ _ _ _ := trivial

/-! ## Fields that move -/

variable {scope : Scope} {slack depth : Nat} {before after : ClassDecl} {declared : List FieldDecl}
  {field : FieldName}

/-- **A field that moves is hidden nowhere.** After a visit no local variable hides a field that has moved
then, or one that has moved before and was not hidden. -/
theorem Visit.shows (visit : settings.Visit slack depth scope before after declared)
    (owns : Owns field before) {level : Nat} (enough : Pass.maxDepth ≤ level + depth)
    {found visited : FieldDecl} (member : found ∈ before.fields) (named : found.name = field.name)
    (other : visited ∈ after.fields) (alsoNamed : visited.name = field.name)
    (typed : visited.type.typeName = settings.target.loggerType)
    (known : found.type.typeName = settings.target.loggerType →
      ∀ site ∈ before.sitesBeside field.name { level }, site.Shows field.name) :
    ∀ site ∈ after.sitesBeside field.name { level }, site.Shows field.name := by
  obtain ⟨moved, offered, same, type⟩ := visit.exists_declared other
  -- Before the members are visited nothing hides the field, and the visit brings no names in.
  obtain ⟨onFields, onMethods, onNested⟩ := visit.holds_of_checked owns rfl
    (fun start other => (keepsNames_carryField scope start other { level }).shows)
    (fun _ checked => checked.2 fun _ => List.not_mem_nil) member named offered (same.trans alsoNamed)
    (type ▸ typed) known
  have members := settings.siteLaw_of_names (scope.holding declared) []
  obtain ⟨start, last, runNested⟩ := visit.nested
  cases after with
  | decl header fields methods nested =>
    refine List.forall_mem_append.mpr ⟨?_, List.forall_mem_append.mpr ⟨?_, ?_⟩⟩
    · refine ((members.initializers visit.initializers).2 (· != field.name) { level } rfl enough).shows ?_
      intro site inside
      obtain ⟨other, kept, inside⟩ := List.mem_flatMap.mp inside
      obtain ⟨listed, apart⟩ := List.mem_filter.mp kept
      exact onFields other listed (by simpa using apart) site inside
    · exact (members.methods visit.methods rfl enough).shows onMethods
    · have near : Pass.maxDepth ≤ level + 1 + (depth - 1) := by omega
      exact (classLaw_of_names.visitNested before.nested (fun _ _ => trivial) runNested { level } near
        trivial).shows onNested

/-- What is hidden in a class does not depend on how deep the class is nested. -/
theorem shows_of_level {name : String} {first : Nat} (second : Nat)
    (shows : ∀ site ∈ after.sitesBeside name { level := first }, site.Shows name) :
    ∀ site ∈ after.sitesBeside name { level := second }, site.Shows name := by
  have matched := after.forall₂_sitesBeside Place.steady_sameNames
    (show Place.SameNames { level := first } { level := second } from ⟨rfl, rfl⟩) name
  have keeps : Site.KeepsNames (after.sitesBeside name { level := first })
      (after.sitesBeside name { level := second }) := by
    intro site member
    obtain ⟨other, found, -, same⟩ := exists_of_forall₂ matched member
    exact ⟨other, found, same⟩
  exact keeps.shows shows

end Migrate

/-! ## What is printed -/

namespace Redirect

variable {settings : Redirect} {scope : ClassScope}

/-- The logger of a class by its bare name: one that it has, or else the one that it is given. -/
def ownLogger (settings : Redirect) (scope : ClassScope) : Expr :=
  .ident ((scope.loggerName? settings.target).getD settings.loggerPolicy.fieldName)
    (.named settings.target.loggerType)

/-- The expression is a call of that logger. -/
def IsOwnCall (settings : Redirect) (scope : ClassScope) (expr : Expr) : Prop :=
  ∃ name arguments method,
    expr = .methodCall (some (settings.ownLogger scope)) name arguments (some method)

theorem isOwnCall_of_emit? {event : LogEvent} {replacement : Replacement}
    (emitted : settings.emit? event scope = some replacement) :
    settings.IsOwnCall scope replacement.expr := by
  obtain ⟨choice, chosen, same, -⟩ := emit?_cases emitted
  have receiver : choice.receiver = settings.ownLogger scope := by
    obtain ⟨name, known, rfl⟩ | ⟨unknown, -, -, rfl⟩ := ClassScope.chooseLogger?_cases chosen
    · rw [ownLogger, known]
      rfl
    · rw [ownLogger, unknown]
      rfl
  obtain ⟨name, arguments, written, -⟩ :=
    event.written_emit settings.target settings.severityPolicy choice.receiver
  refine ⟨name, arguments, .onInstance settings.target.loggerType name, ?_⟩
  rw [same, written, receiver]
  rfl

/-- A class that has been given a logger has it by the same name. -/
theorem ownLogger_addField (unknown : scope.loggerName? settings.target = none) (owner : String) :
    settings.ownLogger (scope.addField (settings.request owner).declaration) =
      settings.ownLogger scope := by
  rw [ownLogger, ownLogger, loggerName?_addField unknown, unknown]
  rfl

/-- The logger of the class is the same after a pair has been merged. -/
theorem ownLogger_later {event : LogEvent} {replacement : Replacement}
    (emitted : settings.emit? event scope = some replacement) :
    settings.ownLogger (match replacement.effects.field with
      | some request => scope.addField request.declaration
      | none => scope) = settings.ownLogger scope := by
  split
  · rename_i request asked
    rw [request_emit? emitted asked]
    obtain ⟨choice, chosen, -, field, -⟩ := emit?_cases emitted
    obtain ⟨_, -, rfl⟩ | ⟨unknown, -⟩ := ClassScope.chooseLogger?_cases chosen
    · cases asked.symm.trans field
    · exact ownLogger_addField unknown scope.fqn
  · rfl

/-- The statements of a block are kept, or they are calls of the logger of the class. -/
theorem isOwnCall_of_mergePairs (scope : ClassScope) (block : List Statement) :
    ∀ statement ∈ (settings.mergePairs scope block).1, statement ∈ block ∨
      ∃ expr, statement = .expression expr ∧ settings.IsOwnCall scope expr := by
  fun_induction mergePairs settings scope block with
  | case1 scope first second rest replacement found later statements effects visited
      ih =>
    obtain ⟨event, -, emitted⟩ := Option.bind_eq_some_iff.mp found
    rw [visited] at ih
    refine List.forall_mem_cons.mpr
      ⟨.inr ⟨_, rfl, isOwnCall_of_emit? emitted⟩, fun statement member => ?_⟩
    obtain kept | ⟨expr, same, calls⟩ := ih statement member
    · exact .inl (List.mem_cons_of_mem _ (List.mem_cons_of_mem _ kept))
    · -- The rest has been merged with the logger in scope, and it goes by the same name.
      rw [IsOwnCall, show settings.ownLogger later = _ from ownLogger_later emitted] at calls
      exact .inr ⟨expr, same, calls⟩
  | case2 scope first second rest unmerged statements effects visited ih =>
    rw [visited] at ih
    refine List.forall_mem_cons.mpr ⟨.inl List.mem_cons_self, fun statement member => ?_⟩
    exact (ih statement member).imp_left (List.mem_cons_of_mem _)
  | case3 => exact fun statement member => .inl member

/-- The rule writes calls of the logger of the class and nothing else, wherever they stand. -/
structure ReportsToOwn (settings : Redirect) (rule : Rule) : Prop where
  onExpr {expr : Expr} {scope : Scope} {replacement : Replacement} :
    rule.onExpr expr scope = .ok (some replacement) →
      settings.IsOwnCall scope.current replacement.expr
  onBlock {block : List Statement} {scope : Scope} {replacement : BlockReplacement} :
    rule.onBlock block scope = .ok (some replacement) →
      ∀ statement ∈ replacement.statements, statement ∈ block ∨
        ∃ expr, statement = .expression expr ∧ settings.IsOwnCall scope.current expr

theorem reportsToOwn_consoleRule (settings : Redirect) : settings.ReportsToOwn settings.consoleRule where
  onExpr made := by
    obtain ⟨call, -, -, emitted⟩ := replaceConsole?_cases (Except.ok.inj made)
    exact isOwnCall_of_emit? emitted
  onBlock {block scope replacement} made := by
    obtain ⟨-, rfl⟩ := replaceBlock?_cases (Except.ok.inj made)
    exact isOwnCall_of_mergePairs scope.current block

theorem reportsToOwn_stackTraceRule (settings : Redirect) :
    settings.ReportsToOwn settings.stackTraceRule where
  onExpr made := by
    obtain ⟨call, -, -, emitted⟩ := replaceTrace?_cases (Except.ok.inj made)
    exact isOwnCall_of_emit? emitted
  onBlock made := by cases made

/-- **What is printed goes to the logger of the class.** -/
theorem reportsToOwn_of_mem (settings : Redirect) :
    ∀ rule ∈ [settings.consoleRule, settings.stackTraceRule, settings.rule],
      settings.ReportsToOwn rule := by
  have each : ∀ rule ∈ [settings.consoleRule, settings.stackTraceRule], settings.ReportsToOwn rule :=
    List.forall_mem_cons.mpr ⟨settings.reportsToOwn_consoleRule,
      List.forall_mem_singleton.mpr settings.reportsToOwn_stackTraceRule⟩
  have both : settings.ReportsToOwn settings.rule := {
    onExpr := fun made => by
      obtain ⟨rule, member, -, offered⟩ := Rule.onExpr_bundle made
      exact (each rule member).onExpr offered
    onBlock := fun made => by
      obtain ⟨rule, member, offered⟩ := Rule.onBlock_bundle made
      exact (each rule member).onBlock offered }
  exact List.forall_mem_append.mpr ⟨each, List.forall_mem_singleton.mpr both⟩

end Redirect

namespace Engine

open Migrate

/-- **Receivers of moved calls are fields.** In whatever unit passes make, no local variable hides a field
that they have moved to the target framework, but in the initializer of the field. Nothing of the kind
holds of what is printed: it goes to the logger of its class, whatever local variables there are. -/
theorem uncaptured_of_reaches {settings : Migrate} {engine : Engine} {unit visited : CompilationUnit}
    (single : engine.rules = [settings.rule]) (named : unit.WellNamed)
    (reaches : engine.Reaches unit visited) {before : ClassDecl} (member : before ∈ unit.allClasses)
    {field : FieldDecl} (declares : field ∈ before.fields)
    (foreign : field.type.typeName ≠ settings.target.loggerType) (redirect : Redirect) :
    (∃ after ∈ visited.allClasses, after.fqn = before.fqn ∧
      ∃ moved ∈ after.fields, moved.name = field.name ∧
        (moved.type.typeName = settings.target.loggerType →
          ∀ site ∈ after.sitesBeside field.name {}, site.Shows field.name)) ∧
    ∀ rule ∈ [redirect.consoleRule, redirect.stackTraceRule, redirect.rule],
      redirect.ReportsToOwn rule := by
  refine ⟨(holds_of_reaches single named member declares (fun typed => absurd typed foreign) ?_
    reaches).2, redirect.reportsToOwn_of_mem⟩
  intro middle entry slack depth scope after renewed old moved _ _ owns enough _ visit oldDeclares oldNamed
    declared sameName held typed
  exact shows_of_level 1 (visit.shows owns enough oldDeclares oldNamed declared sameName typed
    fun already => shows_of_level entry.1.level (held already))

/-- A variable of the name of a field that moves can only be where a nested class has such a field. -/
theorem uncaptured_of_reaches_nested :
    let settings := Migrate.toward .slf4j
    let engine : Engine := { rules := [settings.rule] }
    let redirect : Redirect := { target := .slf4j }
    let logger (framework : Framework) : JavaType := .named framework.loggerType
    let field (framework : Framework) : FieldDecl :=
      { name := "f", type := logger framework,
        initializer := some (framework.factoryCall (.classObject "C") "C") }
    let log (framework : Framework) (receiver : Expr) : Statement := .expression
      (.call receiver "info" [.string "x"] (.onInstance framework.loggerType "info"))
    let declared (framework : Framework) : ClassDecl :=
      .decl { name := "C", fqn := "C" } [field framework]
        [{ name := "m", parameters := [{ name := "g", type := logger .log4j2 }]
           body := [log .log4j2 (.ident "g" (logger .log4j2)),
             log framework (.ident "f" (logger framework))] }]
        [.decl { name := "D", fqn := "C.D" } [{ name := "f", type := .string }]
          [{ name := "n", body := [.expression (.methodCall none "use"
            [.lambda ["f"] [log .log4j2 (.ident "f" (logger .log4j2))]] none)] }] []]
    let unit : CompilationUnit := { classes := [declared .log4j2] }
    let outcome : Outcome := {
      unit := {
        imports := [{ typeName := "org.slf4j.LoggerFactory" }, { typeName := "org.slf4j.Logger" }]
        classes := [declared .slf4j] }
      summary := { unitsChanged := 1, replacements := 2, cycles := 2 } }
    (engine.transform {} unit).1 = .ok outcome ∧ unit.WellNamed ∧
      field .log4j2 ∈ (declared .log4j2).fields ∧
      (field .log4j2).type.typeName ≠ settings.target.loggerType ∧
      (∃ after ∈ outcome.unit.allClasses, after.fqn = "C" ∧
        ∃ moved ∈ after.fields, moved.name = "f" ∧
          (moved.type.typeName = settings.target.loggerType →
            ∀ site ∈ after.sitesBeside "f" {}, site.Shows "f")) ∧
      redirect.ReportsToOwn redirect.rule := by
  intro settings engine redirect logger field log declared unit outcome
  have converged : (engine.transform {} unit).1 = .ok outcome := by decide
  have named : unit.WellNamed := ⟨by decide, by decide⟩
  have inUnit : declared .log4j2 ∈ unit.allClasses := by decide
  have declares : field .log4j2 ∈ (declared .log4j2).fields := by decide
  have foreign : (field .log4j2).type.typeName ≠ settings.target.loggerType := by decide
  have single : engine.rules = [settings.rule] := rfl
  obtain ⟨shown, reports⟩ := uncaptured_of_reaches single named (reaches_of_transform converged) inUnit
    declares foreign redirect
  exact ⟨converged, named, declares, foreign, shown, reports redirect.rule (by simp)⟩

/-- A call on a parameter moves if a field of its name is a logger of the target framework, and what is
printed is sent to the parameter. -/
theorem transform_captures_parameter :
    let field : FieldDecl := { name := "logger", type := .named "org.slf4j.Logger" }
    let declared (body : Expr) : ClassDecl :=
      .decl { name := "C", fqn := "C" } [field]
        [{ name := "m", parameters := [{ name := "logger", type := .named "org.apache.log4j.Logger" }]
           body := [.expression body] }] []
    let log (fqn : String) : Expr := .call (.ident "logger" (.named fqn)) "info" [.string "x"]
      (.onInstance fqn "info")
    let print : Expr := .call (.fieldAccess (.typeRef ClassName.system) "out" none) "println"
      [.string "x"] (.onInstance ClassName.printStream "println")
    let migrate : Engine := { rules := [(Migrate.toward .slf4j).rule] }
    let console : Engine := { rules := [({ target := .slf4j } : Redirect).consoleRule] }
    (∀ site ∈ ({ classes := [declared (log "org.slf4j.Logger")] } : CompilationUnit).sites,
      "logger" ∈ site.locals) ∧
    (migrate.transform {} { classes := [declared (log "org.apache.log4j.Logger")] }).1.map
        (·.unit.classes) = .ok [declared (log "org.slf4j.Logger")] ∧
      (console.transform {} { classes := [declared print] }).1.map (·.unit.classes) =
        .ok [declared (log "org.slf4j.Logger")] := by
  intro field declared log print migrate console
  exact ⟨by decide, by decide, by decide⟩

end Engine

end LogCalls
