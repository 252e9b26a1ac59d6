import LogCalls.Proofs.Convergence.Transform

/-! # What a transformation leaves alone

Rules change expressions, the types and initializers of logger fields and who may see them. Everything
else in a file stays as it is, except for the imports of classes; and a class is given one logger at
most, however many calls in it ask for one and however many passes are made. -/

namespace LogCalls

variable {configuration : Configuration}

/-- Lists that look alike have the same views. -/
theorem map_eq_of_forall₂ {α β : Type} {view : α → β} {before after : List α}
    (each : List.Forall₂ (fun before after => view after = view before) before after) :
    after.map view = before.map view := by
  induction each with
  | nil => rfl
  | cons same _ ih => rw [List.map_cons, List.map_cons, same, ih]

/-! ## Fields -/

namespace FieldDecl

/-- What becomes of a field has its name. It stays a logger of the target if it is one, and it stays as
it is declared if it is private. -/
structure Keeps (target : Framework) (before after : FieldDecl) : Prop where
  name : after.name = before.name
  logger : before.type = .named target.loggerType → after.type = .named target.loggerType
  hidden : before.modifiers.visibility = .privateAccess → after.modifiers = before.modifiers

variable {target : Framework}

/-- A field keeps itself. -/
theorem Keeps.refl (field : FieldDecl) : Keeps target field field := ⟨rfl, id, fun _ => rfl⟩

/-- Fields are kept from step to step. -/
theorem Keeps.trans {first second third : FieldDecl} (former : Keeps target first second)
    (latter : Keeps target second third) : Keeps target first third where
  name := latter.name.trans former.name
  logger typed := latter.logger (former.logger typed)
  hidden isPrivate := by
    have same := former.hidden isPrivate
    exact (latter.hidden (same ▸ isPrivate)).trans same

/-- So are lists of fields. -/
theorem Keeps.trans_forall₂ {first second third : List FieldDecl}
    (former : List.Forall₂ (Keeps target) first second)
    (latter : List.Forall₂ (Keeps target) second third) :
    List.Forall₂ (Keeps target) first third := by
  induction former generalizing third with
  | nil => exact latter
  | cons keeps _ ih =>
    obtain ⟨field, others, keepsField, keepsOthers, rfl⟩ := List.forall₂_cons_left_iff.mp latter
    exact .cons (keeps.trans keepsField) (ih keepsOthers)

/-- Kept fields keep their names. -/
theorem map_name_of_keeps {before after : List FieldDecl}
    (kept : List.Forall₂ (Keeps target) before after) :
    after.map (·.name) = before.map (·.name) :=
  map_eq_of_forall₂ (kept.imp fun _ _ keeps => keeps.name)

/-- A logger of the target that no other class sees and that is not assigned again. -/
structure IsGiven (name : String) (target : Framework) (field : FieldDecl) : Prop where
  name : field.name = name
  type : field.type = .named target.loggerType
  modifiers : field.modifiers =
    { visibility := .privateAccess, isStatic := true, isFinal := true }

/-- The fields are kept in their order, and at most one logger is put before them, whose name none of
them has. -/
def GivenLogger (name : String) (target : Framework) (before after : List FieldDecl) : Prop :=
  ∃ (given : Option FieldDecl) (kept : List FieldDecl), after = given.toList ++ kept ∧
    kept.map (·.name) = before.map (·.name) ∧ List.Forall₂ (Keeps target) before kept ∧
    ∀ field, given = some field → IsGiven name target field ∧ name ∉ before.map (·.name)

variable {name : String}

/-- No logger is given where fields are kept. -/
theorem givenLogger_of_keeps {before after : List FieldDecl}
    (kept : List.Forall₂ (Keeps target) before after) : GivenLogger name target before after :=
  ⟨none, after, rfl, map_name_of_keeps kept, kept, nofun⟩

/-- **One logger is enough.** A class that has been given a logger has a field of its name, so it is
given no other. -/
theorem GivenLogger.trans {first second third : List FieldDecl}
    (former : GivenLogger name target first second)
    (latter : GivenLogger name target second third) : GivenLogger name target first third := by
  obtain ⟨given, kept, rfl, sameNames, keeps, fresh⟩ := former
  obtain ⟨later, still, rfl, laterNames, keepsLater, freshLater⟩ := latter
  cases given with
  | none =>
    have keeps : List.Forall₂ (Keeps target) first still := Keeps.trans_forall₂ keeps keepsLater
    refine ⟨later, still, rfl, map_name_of_keeps keeps, keeps, fun field new => ?_⟩
    obtain ⟨isGiven, free⟩ := freshLater field new
    exact ⟨isGiven, sameNames ▸ free⟩
  | some logger =>
    obtain ⟨isGiven, free⟩ := fresh logger rfl
    obtain ⟨field, others, keepsLogger, keepsOthers, rfl⟩ :=
      List.forall₂_cons_left_iff.mp keepsLater
    have keeps : List.Forall₂ (Keeps target) first others := Keeps.trans_forall₂ keeps keepsOthers
    have unchanged := keepsLogger.hidden (by rw [isGiven.modifiers])
    have stays : IsGiven name target field := {
      name := keepsLogger.name.trans isGiven.name
      type := keepsLogger.logger isGiven.type
      modifiers := unchanged.trans isGiven.modifiers }
    cases later with
    | none =>
      refine ⟨some field, others, rfl, map_name_of_keeps keeps, keeps, fun other new => ?_⟩
      cases new
      exact ⟨stays, free⟩
    | some another =>
      -- A second logger would have the name of the first, which is taken.
      refine absurd ?_ (freshLater another rfl).2
      rw [← isGiven.name]
      exact List.mem_map_of_mem List.mem_cons_self

end FieldDecl

/-! ## Classes and units -/

/-- A method without its body. -/
def MethodDecl.outline (method : MethodDecl) : MethodDecl := { method with body := [] }

namespace ClassDecl

mutual

/-- The classes have the same header, methods that differ in their bodies only, the same classes nested
inside, and the fields of the first have been kept. -/
def Framed (name : String) (target : Framework) : ClassDecl → ClassDecl → Prop
  | .decl header fields methods nested, .decl header' fields' methods' nested' =>
    header' = header ∧ FieldDecl.GivenLogger name target fields fields' ∧
      methods'.map MethodDecl.outline = methods.map MethodDecl.outline ∧
      FramedList name target nested nested'

/-- Classes that are framed one by one. -/
def FramedList (name : String) (target : Framework) : List ClassDecl → List ClassDecl → Prop
  | [], after => after = []
  | first :: rest, after => ∃ visited others, after = visited :: others ∧
      Framed name target first visited ∧ FramedList name target rest others

end

variable {name : String} {target : Framework}

mutual

/-- Frames follow each other. -/
theorem Framed.trans : ∀ {first second third : ClassDecl}, Framed name target first second →
    Framed name target second third → Framed name target first third
  | .decl _ _ _ _, .decl _ _ _ _, .decl _ _ _ _, former, latter => by
    rw [Framed] at former latter ⊢
    obtain ⟨sameHeader, fields, methods, nested⟩ := former
    obtain ⟨sameHeader', fields', methods', nested'⟩ := latter
    exact ⟨sameHeader'.trans sameHeader, fields.trans fields', methods'.trans methods,
      FramedList.trans nested nested'⟩

/-- So do frames of nested classes. -/
theorem FramedList.trans : ∀ {first second third : List ClassDecl},
    FramedList name target first second → FramedList name target second third →
    FramedList name target first third
  | [], _, _, former, latter => by
    rw [FramedList] at former
    rw [former] at latter
    exact latter
  | _ :: _, _, _, former, latter => by
    rw [FramedList] at former ⊢
    obtain ⟨visited, others, rfl, onFirst, onRest⟩ := former
    rw [FramedList] at latter
    obtain ⟨again, more, rfl, onVisited, onOthers⟩ := latter
    exact ⟨again, more, rfl, onFirst.trans onVisited, FramedList.trans onRest onOthers⟩

end

/-- Classes are framed one by one. -/
theorem framedList_of_each {count : Nat} {before after : List ClassDecl}
    (each : Pass.Each (fun _ => Framed name target) count before after) :
    FramedList name target before after := by
  induction each with
  | nil => rw [FramedList]
  | cons framed _ ih =>
    rw [FramedList]
    exact ⟨_, _, rfl, framed, ih⟩

end ClassDecl

/-- The units are found in the same place and have the same package, the same imports of static members,
and classes that are framed. -/
structure CompilationUnit.Framed (name : String) (target : Framework)
    (before after : CompilationUnit) : Prop where
  sourcePath : after.sourcePath = before.sourcePath
  package : after.package = before.package
  staticImports : after.imports.filter (·.isStatic) = before.imports.filter (·.isStatic)
  classes : ClassDecl.FramedList name target before.classes after.classes

/-- Frames of units follow each other. -/
theorem CompilationUnit.Framed.trans {name : String} {target : Framework}
    {first second third : CompilationUnit} (former : Framed name target first second)
    (latter : Framed name target second third) : Framed name target first third where
  sourcePath := latter.sourcePath.trans former.sourcePath
  package := latter.package.trans former.package
  staticImports := latter.staticImports.trans former.staticImports
  classes := former.classes.trans latter.classes

/-! ## Rules -/

/-- What the rule puts in place of a field keeps it. -/
def Rule.KeepsFields (target : Framework) (rule : Rule) : Prop :=
  ∀ {field declared scope replacement}, rule.onField field declared scope = .ok (some replacement) →
    FieldDecl.Keeps target field replacement.field

/-- A field that moves becomes a logger of the target. -/
theorem Migrate.keepsFields_rule (settings : Migrate) : settings.rule.KeepsFields settings.target := by
  intro field declared scope replacement made
  obtain ⟨_, _, _, -, -, -, -, -, -, written, -⟩ := replaceField?_cases (Except.ok.inj made)
  rw [written]
  exact ⟨rfl, fun _ => rfl, fun _ => rfl⟩

/-- A field that is private is not made private again. -/
theorem PrivateLogger.keepsFields_rule (target : Framework) :
    PrivateLogger.rule.KeepsFields target := by
  intro field declared scope replacement made
  obtain ⟨visible, rfl⟩ := replaceField?_cases (Except.ok.inj made)
  exact ⟨rfl, id, fun isPrivate => absurd isPrivate visible⟩

/-- Rules of a configuration keep fields. -/
theorem Configuration.keepsFields_of_buildRule {name : String}
    {rule : Rule} (built : configuration.buildRule name = .ok rule) :
    rule.KeepsFields configuration.target := by
  cases builds_of_buildRule built with
  | print =>
    intro field declared scope replacement made
    obtain ⟨rule, member, offered⟩ := Rule.onField_bundle made
    simp only [List.mem_cons, List.not_mem_nil, or_false] at member
    obtain rfl | rfl := member <;> cases offered
  | migrate => exact configuration.migrate.keepsFields_rule
  | privateLogger => exact PrivateLogger.keepsFields_rule configuration.target
  | _ =>
    intro field declared scope replacement made
    cases made

/-- All rules of an engine suit the tariff of its configuration. -/
theorem Engine.suits_of_ofConfiguration {engine : Engine}
    (built : ofConfiguration configuration = .ok engine) :
    ∀ owner, ∀ rule ∈ engine.rules, (configuration.tariff.within owner).Suits rule := by
  intro owner rule member
  obtain ⟨name, listed, known⟩ := exists_of_mem_ofConfiguration built member
  exact Configuration.suits_of_buildRule listed known owner

/-- All configured rules keep fields. -/
theorem Engine.keepsFields_of_ofConfiguration {engine : Engine}
    (built : ofConfiguration configuration = .ok engine) :
    ∀ rule ∈ engine.rules, rule.KeepsFields configuration.target := by
  intro rule member
  obtain ⟨name, -, known⟩ := exists_of_mem_ofConfiguration built member
  exact Configuration.keepsFields_of_buildRule known

/-! ## Passes -/

namespace ClassDecl

variable {tariff : Tariff} {rules : List Rule} {slack : Nat}

/-- The requested logger is put before the fields, unless its name is taken. -/
theorem givenLogger_declareRequested {requests : List FieldRequest}
    (own : ∀ asked ∈ requests, asked = tariff.request) (fields : List FieldDecl) :
    FieldDecl.GivenLogger tariff.loggerName tariff.target fields
      (Pass.declareRequested requests fields) := by
  have kept : List.Forall₂ (FieldDecl.Keeps tariff.target) fields fields :=
    List.forall₂_same.mpr fun field _ => .refl field
  obtain same | ⟨free, given⟩ := Tariff.declareRequested_cases own fields
  · rw [same]
    exact FieldDecl.givenLogger_of_keeps kept
  · refine ⟨some tariff.request.declaration, fields, given, rfl, kept, fun field new => ?_⟩
    cases new
    refine ⟨⟨rfl, rfl, rfl⟩, fun taken => ?_⟩
    obtain ⟨field, member, named⟩ := List.mem_map.mp taken
    have taken : fields.any (·.name == tariff.request.fieldName) = true :=
      List.any_eq_true.mpr ⟨field, member, beq_iff_eq.mpr named⟩
    rw [free] at taken
    cases taken

/-- Offers to rules that keep fields keep them. -/
theorem keeps_offerFields (tariff : Tariff) (keeps : ∀ rule ∈ rules, rule.KeepsFields tariff.target)
    (around : FieldDecl → ClassDecl) (field : FieldDecl) :
    Pass.Yields tariff.Sees (fun _ => FieldDecl.Keeps tariff.target field)
      (rules.foldlM (Pass.offerField around) field) := by
  refine @Pass.Yields.foldOffers _ _ (fun _ => FieldDecl.Keeps tariff.target) ?_ ?_ _ rules field ?_
  · exact fun field => .refl field
  · exact FieldDecl.Keeps.trans
  · intro rule member field
    exact Pass.yields_offerField (fun _ _ => Pass.StandsIn.of_uncounted_eq)
      (FieldDecl.Keeps.refl field) fun _ _ sees made => ⟨sees, keeps rule member made⟩

/-- **A pass keeps to the frame of a class.** -/
theorem carriesOver_framed (suits : ∀ owner, ∀ rule ∈ rules, (tariff.within owner).Suits rule)
    (keeps : ∀ rule ∈ rules, rule.KeepsFields tariff.target) :
    Pass.CarriesOver rules slack fun _ => Framed tariff.loggerName tariff.target := by
  intro header fields methods nested depth scope owned inner progress visited after _ run
  obtain ⟨first, second, third, fourth, offered, initialized, called, others, last, sees, counted,
    onFields, onInitializers, onMethods, onNested, rfl⟩ :=
    (Tariff.visitRelation_of_suits (suits header.fqn)).visitDecl
      (keeps_offerFields (tariff.within header.fqn) keeps) (fun _ _ sees => sees) inner
      ⟨owned, List.forall_mem_nil _⟩ run
  refine ⟨trivial, _, counted, ?_⟩
  -- Fields are offered to the rules and their initializers visited; a requested logger is put before
  -- them.
  have onFields : List.Forall₂ (FieldDecl.Keeps tariff.target) fields offered :=
    onFields.forall₂ fun _ _ _ keeps => keeps
  have onInitializers : List.Forall₂ (FieldDecl.Keeps tariff.target) offered initialized :=
    onInitializers.forall₂ fun _ _ _ ⟨_, same, _⟩ => same ▸ ⟨rfl, id, fun _ => rfl⟩
  have fieldsKept := FieldDecl.Keeps.trans_forall₂ onFields onInitializers
  have onMethods : called.map MethodDecl.outline = methods.map MethodDecl.outline :=
    map_eq_of_forall₂ (onMethods.forall₂ fun _ _ _ ⟨_, same, _⟩ => same ▸ rfl)
  change Framed _ _ (.decl header fields methods nested) _
  rw [Framed]
  exact ⟨rfl, (FieldDecl.givenLogger_of_keeps fieldsKept).trans
    (givenLogger_declareRequested sees.2 initialized), onMethods, framedList_of_each onNested⟩

end ClassDecl

namespace CompilationUnit

/-- Imports of classes come and go, and nothing else. -/
theorem framed_addImport {name : String} {target : Framework} {before unit : CompilationUnit}
    (framed : Framed name target before unit) (fqn : String) :
    Framed name target before (unit.addImport fqn) := by
  unfold addImport
  split
  · refine { framed with staticImports := ?_ }
    rw [← framed.staticImports, List.filter_append]
    simp
  · exact framed

/-- Dropping an import keeps the frame. -/
theorem framed_dropImport {name : String} {target : Framework} {before unit : CompilationUnit}
    (framed : Framed name target before unit) (fqn : String) :
    Framed name target before (unit.dropImport fqn) := by
  unfold dropImport
  split
  · refine { framed with staticImports := ?_ }
    rw [← framed.staticImports, List.filter_filter]
    refine List.filter_congr fun entry _ => ?_
    cases entry.isStatic <;> simp
  · exact framed

/-- To settle the imports keeps to the frame. -/
theorem framed_settleImports {name : String} {target : Framework} {before unit : CompilationUnit}
    (framed : Framed name target before unit) (effects : Effects) :
    Framed name target before (Pass.settleImports unit effects) := by
  have folds (step : CompilationUnit → String → CompilationUnit)
      (keeps : ∀ {unit}, Framed name target before unit →
        ∀ fqn, Framed name target before (step unit fqn)) (names : List String) :
      ∀ {unit}, Framed name target before unit → Framed name target before (names.foldl step unit) := by
    induction names with
    | nil => exact id
    | cons fqn rest ih => exact fun framed => ih (keeps framed fqn)
  exact folds _ framed_dropImport _ (folds _ framed_addImport _ framed)

/-- **A pass keeps to the frame of a unit.** -/
theorem framed_visitUnit {tariff : Tariff} {rules : List Rule} {slack : Nat}
    (suits : ∀ owner, ∀ rule ∈ rules, (tariff.within owner).Suits rule)
    (keeps : ∀ rule ∈ rules, rule.KeepsFields tariff.target) {unit visited : CompilationUnit}
    {progress after : Progress}
    (run : (Pass.visitUnit rules slack unit).run progress = .ok visited after) :
    Framed tariff.loggerName tariff.target unit visited := by
  obtain ⟨count, -, each⟩ := (ClassDecl.carriesOver_framed suits keeps).visitUnit run
  obtain ⟨classes, -, rfl⟩ := Pass.run_visitUnit_eq_ok.mp run
  rw [Pass.classes_settleImports] at each
  have framed : Framed tariff.loggerName tariff.target unit { unit with classes } :=
    ⟨rfl, rfl, rfl, ClassDecl.framedList_of_each each⟩
  exact framed_settleImports framed after.effects

end CompilationUnit

namespace Engine

/-- **A transformation keeps to the frame of a unit.** Whatever rules a configuration names, the outcome
has the path, the package and the static imports of the unit, the same classes with the same methods up
to their bodies, and in each class the same fields, with at most one private logger of the target put
before them. -/
theorem framed_transform (configuration : Configuration) (engine : Engine) (statistics : Statistics)
    (unit : CompilationUnit) (outcome : Outcome)
    (built : ofConfiguration configuration = .ok engine)
    (converged : (engine.transform statistics unit).1 = .ok outcome) :
    CompilationUnit.Framed configuration.loggerName configuration.target unit outcome.unit := by
  have pass {statistics : Statistics} {unit visited : CompilationUnit} {count : Nat}
      (passed : (engine.cycle statistics unit).1 = .ok (visited, count)) :
      CompilationUnit.Framed configuration.loggerName configuration.target unit visited := by
    obtain ⟨after, run, -⟩ := cycle_eq_ok.mp passed
    exact CompilationUnit.framed_visitUnit (suits_of_ofConfiguration built)
      (keepsFields_of_ofConfiguration built) run
  exact transformFrom_related (fun former latter => former.trans latter) pass _ _ _ _ converged

/-- Console writes and stack traces share the one logger that their class is given, and a nested class
is given its own. -/
theorem framed_transform_shared :
    let configuration : Configuration := { rules := ["console", "print-stack-trace"] }
    let rules := [configuration.redirect.consoleRule, configuration.redirect.stackTraceRule]
    let engine : Engine := { rules, maxCycles := 10 }
    let print (stream text : String) : Statement := .expression
      (.call (.fieldAccess (.typeRef ClassName.system) stream none) "println" [.string text]
        (.onInstance ClassName.printStream "println"))
    let error := Expr.ident "e" (.named ClassName.throwable)
    let trace : Statement := .expression
      (.call error "printStackTrace" [] (.onInstance ClassName.throwable "printStackTrace"))
    let log (method : String) (arguments : List Expr) : Statement := .expression
      (.call (.ident "logger" (.named "org.slf4j.Logger")) method arguments
        (.onInstance "org.slf4j.Logger" method))
    let logger (owner : String) : FieldDecl :=
      FieldRequest.declaration { ownerType := owner, fieldName := "logger", framework := .slf4j }
    let count : FieldDecl := { name := "count", type := .primitive .int }
    let declared (given inside : List FieldDecl) (body inner : List Statement) : ClassDecl :=
      .decl { name := "C", fqn := "C" } (given ++ [count]) [{ name := "m", body }]
        [.decl { name := "D", fqn := "C.D" } inside [{ name := "n", body := inner }] []]
    let unit : CompilationUnit := {
      classes := [declared [] [] [print "out" "x", trace] [print "err" "y", trace]] }
    let outcome : Outcome := {
      unit := {
        imports := [{ typeName := "org.slf4j.Logger" }, { typeName := "org.slf4j.LoggerFactory" }]
        classes := [declared [logger "C"] [logger "C.D"]
          [log "info" [.string "x"], log "error" [.string "Exception", error]]
          [log "error" [.string "y", error]]] }
      summary := { unitsChanged := 1, replacements := 3, cycles := 2 } }
    ofConfiguration configuration = .ok engine ∧ (engine.transform {} unit).1 = .ok outcome ∧
      CompilationUnit.Framed "logger" .slf4j unit outcome.unit := by
  intro configuration rules engine print error trace log logger count declared unit outcome
  have sorted : Rule.byPriority rules = rules :=
    List.mergeSort_of_pairwise (by simp [rules, Redirect.consoleRule, Redirect.stackTraceRule])
  have built : ofConfiguration configuration = .ok engine := by
    have step : ofConfiguration configuration =
        .ok { rules := Rule.byPriority rules, maxCycles := 10 } := rfl
    rw [step, sorted]
  have converged : (engine.transform {} unit).1 = .ok outcome := by decide +kernel
  exact ⟨built, converged, framed_transform configuration engine {} unit outcome built converged⟩

end Engine

end LogCalls
