import LogCalls.Proofs.Migration.Runs

/-! # Loggers of this object

A logger field can be written with `this` before its name. Such a name is no reference that the check of
the uses of a field knows, and none that a pass looks up: it keeps no field from moving, and a call on it
does not move. -/

namespace LogCalls

/-! ## Names written with `this` -/

mutual

/-- The second expression is the first one with `this` written before the name in some places. -/
inductive Expr.Qualifies (name : String) : Expr → Expr → Prop where
  | same (expr : Expr) : Expr.Qualifies name expr expr
  | reference (type this : Option JavaType) : Expr.Qualifies name (.identifier name type)
      (.fieldAccess (.identifier "this" this) name type)
  | fieldAccess {target other : Expr} (field : String) (type : Option JavaType) :
      Expr.Qualifies name target other →
        Expr.Qualifies name (.fieldAccess target field type) (.fieldAccess other field type)
  | methodCall {select other : Expr} {arguments others : List Expr} (called : String)
      (method : Option ResolvedMethod) : Expr.Qualifies name select other →
        Expr.QualifiesList name arguments others →
        Expr.Qualifies name (.methodCall (some select) called arguments method)
          (.methodCall (some other) called others method)
  | bareCall {arguments others : List Expr} (called : String) (method : Option ResolvedMethod) :
      Expr.QualifiesList name arguments others →
        Expr.Qualifies name (.methodCall none called arguments method)
          (.methodCall none called others method)
  | binary {left right first second : Expr} (operator : BinaryOperator) (type : Option JavaType) :
      Expr.Qualifies name left first → Expr.Qualifies name right second →
        Expr.Qualifies name (.binary operator left right type) (.binary operator first second type)
  | newClass {arguments others : List Expr} (type : JavaType) :
      Expr.QualifiesList name arguments others →
        Expr.Qualifies name (.newClass type arguments) (.newClass type others)
  | newArray {elements others : List Expr} (element : JavaType) :
      Expr.QualifiesList name elements others →
        Expr.Qualifies name (.newArray element elements) (.newArray element others)
  | lambda {body other : List Statement} (parameters : List String) :
      Statement.QualifiesBlock name body other →
        Expr.Qualifies name (.lambda parameters body) (.lambda parameters other)
  | parens {inner other : Expr} : Expr.Qualifies name inner other →
      Expr.Qualifies name (.parens inner) (.parens other)

inductive Expr.QualifiesList (name : String) : List Expr → List Expr → Prop where
  | nil : Expr.QualifiesList name [] []
  | cons {first second : Expr} {rest others : List Expr} : Expr.Qualifies name first second →
      Expr.QualifiesList name rest others → Expr.QualifiesList name (first :: rest) (second :: others)

inductive Statement.Qualifies (name : String) : Statement → Statement → Prop where
  | same (statement : Statement) : Statement.Qualifies name statement statement
  | expression {value other : Expr} : Expr.Qualifies name value other →
      Statement.Qualifies name (.expression value) (.expression other)
  | declaration {initial other : Expr} (declared : String) (type : JavaType) :
      Expr.Qualifies name initial other →
        Statement.Qualifies name (.declaration declared type (some initial))
          (.declaration declared type (some other))
  | block {body other : List Statement} : Statement.QualifiesBlock name body other →
      Statement.Qualifies name (.block body) (.block other)
  | conditional {condition other : Expr} {thenBranch otherThen : List Statement} :
      Expr.Qualifies name condition other → Statement.QualifiesBlock name thenBranch otherThen →
        Statement.Qualifies name (.conditional condition thenBranch none)
          (.conditional other otherThen none)
  | alternative {condition other : Expr} {thenBranch otherThen elseBranch otherElse : List Statement} :
      Expr.Qualifies name condition other → Statement.QualifiesBlock name thenBranch otherThen →
        Statement.QualifiesBlock name elseBranch otherElse →
        Statement.Qualifies name (.conditional condition thenBranch (some elseBranch))
          (.conditional other otherThen (some otherElse))
  | guarded {body other : List Statement} {catches others : List CatchClause} :
      Statement.QualifiesBlock name body other → CatchClause.QualifiesList name catches others →
        Statement.Qualifies name (.guarded body catches none) (.guarded other others none)
  | finalized {body other finallyBlock otherFinally : List Statement}
      {catches others : List CatchClause} :
      Statement.QualifiesBlock name body other → CatchClause.QualifiesList name catches others →
        Statement.QualifiesBlock name finallyBlock otherFinally →
        Statement.Qualifies name (.guarded body catches (some finallyBlock))
          (.guarded other others (some otherFinally))
  | returning {value other : Expr} : Expr.Qualifies name value other →
      Statement.Qualifies name (.returning (some value)) (.returning (some other))

inductive Statement.QualifiesBlock (name : String) : List Statement → List Statement → Prop where
  | nil : Statement.QualifiesBlock name [] []
  | cons {first second : Statement} {rest others : List Statement} :
      Statement.Qualifies name first second → Statement.QualifiesBlock name rest others →
        Statement.QualifiesBlock name (first :: rest) (second :: others)

inductive CatchClause.QualifiesList (name : String) : List CatchClause → List CatchClause → Prop where
  | nil : CatchClause.QualifiesList name [] []
  | cons {body other : List Statement} {rest others : List CatchClause} (parameter : String)
      (type : JavaType) : Statement.QualifiesBlock name body other →
        CatchClause.QualifiesList name rest others →
        CatchClause.QualifiesList name (.handler parameter type body :: rest)
          (.handler parameter type other :: others)

end

/-- The methods are the same but for names in the body that are written with `this`. -/
def MethodDecl.Qualifies (name : String) (method other : MethodDecl) : Prop :=
  ∃ body, Statement.QualifiesBlock name method.body body ∧ other = { method with body }

namespace Migrate

variable {name : String} {settings : Migrate} {field : FieldName}

/-! ## The check -/

/-- No call gives way to one of another type. -/
def unserved : Expr → Expr → Prop := fun _ _ => False

/-- The name after `this` is no reference that the check knows. -/
theorem exprMigrates_this (other : field.name ≠ "this") (type this : Option JavaType) :
    exprMigrates settings field false
      (.fieldAccess (.identifier "this" this) field.name type) = true := by
  have apart : ("this" != field.name) = true := bne_iff_ne.mpr other.symm
  rw [exprMigrates, exprMigrates, apart]
  rfl

/-- What the receiver of a call that can be carried over becomes: the same, or its name after `this`. -/
theorem qualifies_receiver {select other : Expr} {arguments : List Expr}
    {method : Option ResolvedMethod} (qualifies : select.Qualifies field.name other)
    (planned : (settings.plan? (.methodCall (some select) name arguments method)).isSome = true)
    (through : refersTo field false select = true) :
    other = select ∨ ∃ type this, other = .fieldAccess (.identifier "this" this) field.name type := by
  obtain ⟨use, planned⟩ := Option.isSome_iff_exists.mp planned
  obtain ⟨-, receiver, retyped⟩ := plan?_receiver planned
  obtain ⟨_, _, rfl, -⟩ | ⟨target, _, _, rfl, -⟩ := Expr.retyped?_cases retyped
  · cases qualifies with
    | same => exact .inl rfl
    | reference _ this => exact .inr ⟨_, this, rfl⟩
  · obtain ⟨_, shape, -⟩ | ⟨_, shape⟩ := refersTo_iff.mp through
    · cases shape
    · cases shape
      cases qualifies with
      | same => exact .inl rfl
      | fieldAccess _ _ owner =>
        cases owner
        exact .inl rfl

/-- A field of a class is written with the name of the class as before. -/
theorem refersTo_of_qualified_field {target qualified : Expr} {type : Option JavaType}
    (qualifies : target.Qualifies field.name qualified)
    (unnamed : refersTo field false (.fieldAccess target name type) = false) :
    refersTo field false (.fieldAccess qualified name type) = false := by
  refine Bool.eq_false_iff.mpr fun through => ?_
  obtain ⟨_, shape, -⟩ | ⟨_, shape⟩ := refersTo_iff.mp through
  · cases shape
  · cases shape
    cases qualifies
    rw [unnamed] at through
    cases through

mutual

/-- An expression that passes the check still does, and it keeps its shape. -/
theorem exprMigrates_of_qualifies (other : field.name ≠ "this") : ∀ {expr qualified : Expr},
    expr.Qualifies field.name qualified → exprMigrates settings field false expr = true →
      exprMigrates settings field false qualified = true ∧ expr.Alike unserved qualified
  | _, _, .same expr, migrates => ⟨migrates, .same expr⟩
  | _, _, .reference type this, migrates => by
    rw [exprMigrates, bne_self_eq_false] at migrates
    cases migrates
  | _, _, .fieldAccess name type target, migrates => by
    rw [exprMigrates, Bool.and_eq_true, Bool.not_eq_true'] at migrates
    obtain ⟨onTarget, alike⟩ := exprMigrates_of_qualifies other target migrates.2
    have unnamed := refersTo_of_qualified_field target migrates.1
    rw [exprMigrates, unnamed, onTarget]
    exact ⟨rfl, .fieldAccess name type alike⟩
  | _, _, .methodCall called method select arguments, migrates => by
    rw [exprMigrates, Bool.and_eq_true] at migrates
    obtain ⟨onSelect, onArguments⟩ := migrates
    obtain ⟨onOthers, alike⟩ := exprsMigrate_of_qualifies other arguments onArguments
    refine ⟨?_, .methodCall (.inl rfl)⟩
    rw [exprMigrates, onOthers, Bool.and_true]
    split at onSelect
    · rename_i through
      obtain rfl | ⟨type, this, rfl⟩ := qualifies_receiver select onSelect through
      · rw [if_pos through]
        exact isSome_plan?_of_alike nofun alike (fun _ _ => nofun) onSelect
      · exact exprMigrates_this other type this
    · have qualified := (exprMigrates_of_qualifies other select onSelect).1
      rw [refersTo_of_exprMigrates qualified]
      exact qualified
  | _, _, .bareCall called method arguments, migrates => by
    rw [exprMigrates] at migrates ⊢
    exact ⟨(exprsMigrate_of_qualifies other arguments migrates).1, .methodCall (.inl rfl)⟩
  | _, _, .binary operator type left right, migrates => by
    rw [exprMigrates, Bool.and_eq_true] at migrates
    obtain ⟨onLeft, leftAlike⟩ := exprMigrates_of_qualifies other left migrates.1
    obtain ⟨onRight, rightAlike⟩ := exprMigrates_of_qualifies other right migrates.2
    rw [exprMigrates, onLeft, onRight]
    exact ⟨rfl, .binary operator type leftAlike rightAlike⟩
  | _, _, .newClass type arguments, migrates => by
    rw [exprMigrates] at migrates ⊢
    exact ⟨(exprsMigrate_of_qualifies other arguments migrates).1, .newClass type _ _⟩
  | _, _, .newArray element elements, migrates => by
    rw [exprMigrates] at migrates ⊢
    obtain ⟨onElements, alike⟩ := exprsMigrate_of_qualifies other elements migrates
    exact ⟨onElements, .newArray element alike.length alike.each⟩
  | _, _, .lambda parameters body, migrates => by
    rw [exprMigrates, Bool.and_eq_true] at migrates
    rw [exprMigrates, migrates.1, blockMigrates_of_qualifies other body migrates.2]
    exact ⟨rfl, .lambda parameters _ _⟩
  | _, _, .parens inner, migrates => by
    rw [exprMigrates] at migrates ⊢
    obtain ⟨onInner, alike⟩ := exprMigrates_of_qualifies other inner migrates
    exact ⟨onInner, .parens alike⟩

theorem exprsMigrate_of_qualifies (other : field.name ≠ "this") : ∀ {exprs qualified : List Expr},
    Expr.QualifiesList field.name exprs qualified →
      exprsMigrate settings field false exprs = true →
      exprsMigrate settings field false qualified = true ∧ Expr.AlikeList unserved exprs qualified
  | _, _, .nil, _ => ⟨rfl, .nil⟩
  | _, _, .cons first rest, migrates => by
    rw [exprsMigrate, Bool.and_eq_true] at migrates
    obtain ⟨onFirst, alike⟩ := exprMigrates_of_qualifies other first migrates.1
    obtain ⟨onRest, alikeRest⟩ := exprsMigrate_of_qualifies other rest migrates.2
    rw [exprsMigrate, onFirst, onRest]
    exact ⟨rfl, .cons alike alikeRest⟩

theorem statementMigrates_of_qualifies (other : field.name ≠ "this") :
    ∀ {statement qualified : Statement}, statement.Qualifies field.name qualified →
      statementMigrates settings field false statement = true →
      statementMigrates settings field false qualified = true
  | _, _, .same statement, migrates => migrates
  | _, _, .expression value, migrates => by
    rw [statementMigrates] at migrates ⊢
    exact (exprMigrates_of_qualifies other value migrates).1
  | _, _, .declaration declared type initial, migrates => by
    rw [statementMigrates, Bool.and_eq_true] at migrates ⊢
    exact ⟨migrates.1, (exprMigrates_of_qualifies other initial migrates.2).1⟩
  | _, _, .block body, migrates => by
    rw [statementMigrates] at migrates ⊢
    exact blockMigrates_of_qualifies other body migrates
  | _, _, .conditional condition thenBranch, migrates => by
    rw [statementMigrates, Bool.and_eq_true] at migrates ⊢
    exact ⟨(exprMigrates_of_qualifies other condition migrates.1).1,
      blockMigrates_of_qualifies other thenBranch migrates.2⟩
  | _, _, .alternative condition thenBranch elseBranch, migrates => by
    rw [statementMigrates, Bool.and_eq_true, Bool.and_eq_true] at migrates ⊢
    exact ⟨⟨(exprMigrates_of_qualifies other condition migrates.1.1).1,
      blockMigrates_of_qualifies other thenBranch migrates.1.2⟩,
      blockMigrates_of_qualifies other elseBranch migrates.2⟩
  | _, _, .guarded body catches, migrates => by
    rw [statementMigrates, Bool.and_eq_true] at migrates ⊢
    exact ⟨blockMigrates_of_qualifies other body migrates.1,
      catchesMigrate_of_qualifies other catches migrates.2⟩
  | _, _, .finalized body catches finallyBlock, migrates => by
    rw [statementMigrates, Bool.and_eq_true, Bool.and_eq_true] at migrates ⊢
    exact ⟨⟨blockMigrates_of_qualifies other body migrates.1.1,
      catchesMigrate_of_qualifies other catches migrates.1.2⟩,
      blockMigrates_of_qualifies other finallyBlock migrates.2⟩
  | _, _, .returning value, migrates => by
    rw [statementMigrates] at migrates ⊢
    exact (exprMigrates_of_qualifies other value migrates).1

theorem blockMigrates_of_qualifies (other : field.name ≠ "this") :
    ∀ {block qualified : List Statement}, Statement.QualifiesBlock field.name block qualified →
      blockMigrates settings field false block = true →
      blockMigrates settings field false qualified = true
  | _, _, .nil, _ => rfl
  | _, _, .cons first rest, migrates => by
    rw [blockMigrates, Bool.and_eq_true] at migrates ⊢
    exact ⟨statementMigrates_of_qualifies other first migrates.1,
      blockMigrates_of_qualifies other rest migrates.2⟩

theorem catchesMigrate_of_qualifies (other : field.name ≠ "this") :
    ∀ {catches qualified : List CatchClause}, CatchClause.QualifiesList field.name catches qualified →
      catchesMigrate settings field false catches = true →
      catchesMigrate settings field false qualified = true
  | _, _, .nil, _ => rfl
  | _, _, .cons parameter type body rest, migrates => by
    rw [catchesMigrate, Bool.and_eq_true, Bool.and_eq_true] at migrates ⊢
    exact ⟨⟨migrates.1.1, blockMigrates_of_qualifies other body migrates.1.2⟩,
      catchesMigrate_of_qualifies other rest migrates.2⟩

end

theorem methodsMigrate_of_qualifies (other : field.name ≠ "this") {methods qualified : List MethodDecl}
    (qualifies : List.Forall₂ (MethodDecl.Qualifies field.name) methods qualified)
    (migrates : methodsMigrate settings field false methods = true) :
    methodsMigrate settings field false qualified = true := by
  unfold methodsMigrate at *
  induction qualifies with
  | nil => rfl
  | cons first _ ih =>
    obtain ⟨body, qualifies, rfl⟩ := first
    rw [List.all_cons, Bool.and_eq_true, Bool.and_eq_true] at migrates ⊢
    exact ⟨⟨migrates.1.1, blockMigrates_of_qualifies other qualifies migrates.1.2⟩,
      ih migrates.2⟩

/-- **A field moves as well if it is written with `this`.** What it becomes is the same. -/
theorem replaceField?_of_qualifies {declared : FieldDecl} (other : declared.name ≠ "this")
    {header : ClassHeader} {fields : List FieldDecl} {methods qualified : List MethodDecl}
    {nested : List ClassDecl}
    (qualifies : List.Forall₂ (MethodDecl.Qualifies declared.name) methods qualified) {scope : Scope}
    {replacement : FieldReplacement}
    (replaced : settings.replaceField? declared (.decl header fields methods nested) scope =
      some replacement) :
    settings.replaceField? declared (.decl header fields qualified nested) scope =
      some replacement := by
  obtain ⟨_, _, _, -, -, -, -, -, uses, -⟩ := replaceField?_cases replaced
  have still : settings.usesMigrate
      { owner := (ClassDecl.decl header fields qualified nested).fqn, name := declared.name } false
      (.decl header fields qualified nested) = true := by
    rw [usesMigrate, Bool.and_eq_true, Bool.and_eq_true] at uses ⊢
    exact ⟨⟨uses.1.1, methodsMigrate_of_qualifies other qualifies uses.1.2⟩, uses.2⟩
  rw [replaceField?] at replaced ⊢
  rw [uses] at replaced
  rw [still]
  exact replaced

/-! ## Passes -/

/-- The references to a field that are written with `this`. -/
def ownReference (name : String) : Reference := fun _ expr =>
  match expr.bare with
  | .fieldAccess (.identifier owner _) field _ => owner == "this" && field == name
  | _ => false

theorem ownReference_iff {fields : List String} {expr : Expr} :
    ownReference name fields expr = true ↔
      ∃ this type, expr.bare = .fieldAccess (.identifier "this" this) name type := by
  unfold ownReference
  split
  · rename_i owner this field type shape
    rw [Bool.and_eq_true, beq_iff_eq, beq_iff_eq]
    constructor
    · rintro ⟨rfl, rfl⟩
      exact ⟨this, type, shape⟩
    · rintro ⟨_, _, same⟩
      cases shape.symm.trans same
      exact ⟨rfl, rfl⟩
  · rename_i other
    exact ⟨nofun, fun ⟨_, _, shape⟩ => (other _ _ _ _ shape).elim⟩

theorem lawful_ownReference (name : String) (target : Framework) :
    (ownReference name).Lawful target where
  pure through := by
    obtain ⟨this, type, shape⟩ := ownReference_iff.mp through
    rw [← Expr.isPure_bare, shape]
    rfl
  parens := rfl
  retyped {fields type expr other} retyped := by
    obtain ⟨_, _, rfl, rfl⟩ | ⟨target, _, _, rfl, rfl⟩ := Expr.retyped?_cases retyped
    · rfl
    · cases target <;> rfl
  literal := rfl
  typeRef := rfl
  classLiteral := rfl
  constant _ := rfl

/-- A pass finds no field for such a reference. -/
theorem unsettled_ownReference (name : String) (scope : Scope) (fields : List String) :
    settings.Unsettled scope fields (ownReference name) := by
  intro expr field through found
  obtain ⟨this, type, shape⟩ := ownReference_iff.mp through
  rw [Scope.fieldFor?, shape] at found
  cases found

end Migrate

namespace Engine

open Migrate

variable {settings : Migrate} {engine : Engine} {unit visited : CompilationUnit}

/-- **Calls on what is written with `this` do not move.** Passes leave them as they are in methods, up to
their arguments, and make no others. -/
theorem ownCalls_of_reaches (single : engine.rules = [settings.rule]) (name : String)
    (reaches : engine.Reaches unit visited) :
    (ownReference name).bodyCalls visited.sites = (ownReference name).bodyCalls unit.sites ∧
      ∀ head : CallHead, head.isOnClass = false →
        ((ownReference name).calls visited.sites).count head ≤
          ((ownReference name).calls unit.sites).count head := by
  have lawful := lawful_ownReference name settings.target
  have anywhere (scope : Scope) (fields : List String) :=
    settings.unsettled_ownReference name scope fields
  have descends : Descends (fun scope fields => settings.Unsettled scope fields (ownReference name))
      fun _ => True := fun _ _ _ _ _ _ _ => anywhere _ _
  induction reaches with
  | refl => exact ⟨rfl, fun _ _ => Nat.le_refl _⟩
  | tail _ step ih =>
    obtain ⟨bodies, counts⟩ := ih
    refine ⟨((classLaw_of_unsettled lawful descends).step (fun _ => anywhere _ _) (fun _ => trivial)
      single step).trans bodies, fun head logs => Nat.le_trans ?_ (counts head logs)⟩
    rw [Reference.count_calls, Reference.count_calls]
    exact (classLaw_of_marks descends fun unsettled => marks_calls lawful unsettled logs).step
      (fun _ => anywhere _ _) (fun _ => trivial) single step

/-- **A field that is written with `this` moves without its calls.** If a field would move, it still does
when it is written with `this` in some places, but no call on what is written so ever moves. -/
theorem transform_qualified_by_this (single : engine.rules = [settings.rule]) {field : FieldDecl}
    (other : field.name ≠ "this") {header : ClassHeader} {fields : List FieldDecl}
    {methods qualified : List MethodDecl} {nested : List ClassDecl}
    (qualifies : List.Forall₂ (MethodDecl.Qualifies field.name) methods qualified) :
    (∀ scope replacement,
      settings.replaceField? field (.decl header fields methods nested) scope = some replacement →
      settings.replaceField? field (.decl header fields qualified nested) scope = some replacement) ∧
    ∀ statistics unit outcome, (engine.transform statistics unit).1 = .ok outcome →
      (ownReference field.name).bodyCalls outcome.unit.sites =
          (ownReference field.name).bodyCalls unit.sites ∧
        ∀ head : CallHead, head.isOnClass = false →
          ((ownReference field.name).calls outcome.unit.sites).count head ≤
            ((ownReference field.name).calls unit.sites).count head :=
  ⟨fun _ _ replaced => replaceField?_of_qualifies other qualifies replaced,
    fun _ _ _ converged => ownCalls_of_reaches single field.name (reaches_of_transform converged)⟩

/-- Of a check and the call behind it only the check is written with `this`: the call moves with the
field, and the check does not. -/
theorem transform_qualified_by_this_check : let settings := Migrate.toward .slf4j
    let engine : Engine := { rules := [settings.rule] }
    let logger (framework : Framework) : JavaType := .named framework.loggerType
    let field (framework : Framework) : FieldDecl :=
      { name := "f", type := logger framework,
        initializer := some (framework.factoryCall (.classObject "C") "C") }
    let guarded (framework : Framework) (checked : Expr) : MethodDecl := {
      name := "m"
      body := [.conditional (.call checked "isInfoEnabled" []
          (.onInstanceReturning "org.apache.logging.log4j.Logger" "isInfoEnabled" (.primitive .boolean)))
        [.expression (.call (.ident "f" (logger framework)) "info" [.string "x"]
          (.onInstance framework.loggerType "info"))] none] }
    let bare := Expr.ident "f" (logger .log4j2)
    let own := Expr.fieldAccess (.identifier "this" none) "f" (some (logger .log4j2))
    let declared (framework : Framework) (checked : Expr) : ClassDecl :=
      .decl { name := "C", fqn := "C" } [field framework] [guarded framework checked] []
    let outcome : Outcome := {
      unit := {
        imports := [{ typeName := "org.slf4j.LoggerFactory" }, { typeName := "org.slf4j.Logger" }]
        classes := [declared .slf4j own] }
      summary := { unitsChanged := 1, replacements := 2, cycles := 2 } }
    "f" ≠ "this" ∧ (guarded .log4j2 bare).Qualifies "f" (guarded .log4j2 own) ∧
      (∃ replacement, settings.replaceField? (field .log4j2) (declared .log4j2 bare)
          (.ofClass (declared .log4j2 bare)) = some replacement ∧
        settings.replaceField? (field .log4j2) (declared .log4j2 own)
          (.ofClass (declared .log4j2 bare)) = some replacement) ∧
      (engine.transform {} { classes := [declared .log4j2 own] }).1 = .ok outcome ∧
      (ownReference "f").bodyCalls outcome.unit.sites = [{
        receiver := own, name := "isInfoEnabled", arity := 0
        method := some (.onInstanceReturning "org.apache.logging.log4j.Logger" "isInfoEnabled"
          (.primitive .boolean)) }] := by
  intro settings engine logger field guarded bare own declared outcome
  have other : (field .log4j2).name ≠ "this" := by decide
  have qualifies : (guarded .log4j2 bare).Qualifies "f" (guarded .log4j2 own) :=
    ⟨_, .cons (.conditional (.methodCall _ _ (.reference _ none) .nil) (.cons (.same _) .nil)) .nil, rfl⟩
  have movable : (settings.replaceField? (field .log4j2) (declared .log4j2 bare)
      (.ofClass (declared .log4j2 bare))).isSome = true := by decide
  obtain ⟨replacement, replaced⟩ := Option.isSome_iff_exists.mp movable
  have converged : (engine.transform {} { classes := [declared .log4j2 own] }).1 = .ok outcome := by
    decide
  obtain ⟨moves, stays⟩ := transform_qualified_by_this (show engine.rules = [settings.rule] from rfl)
    other (.cons qualifies .nil)
  refine ⟨other, qualifies, ⟨replacement, replaced, moves _ _ replaced⟩, converged, ?_⟩
  rw [(stays _ _ _ converged).1]
  decide

/-- A field moves without its call if the call is written with `this`, and even if it is handed on so. -/
theorem transform_leaves_call_on_this : let settings := Migrate.toward .slf4j
    let engine : Engine := { rules := [settings.rule] }
    let logger (framework : Framework) : JavaType := .named framework.loggerType
    let field (framework : Framework) : FieldDecl :=
      { name := "f", type := logger framework,
        initializer := some (framework.factoryCall (.classObject "C") "C") }
    let bare := Expr.ident "f" (logger .log4j2)
    let own := Expr.fieldAccess (.identifier "this" none) "f" (some (logger .log4j2))
    let declared (framework : Framework) (value : Expr) : ClassDecl :=
      .decl { name := "C", fqn := "C" } [field framework]
        [{ name := "m", body := [.expression value] }] []
    let log (receiver : Expr) : Expr := .call receiver "info" [.string "x"]
      (.onInstance "org.apache.logging.log4j.Logger" "info")
    let moved : Expr := .call (.ident "f" (logger .slf4j)) "info" [.string "x"]
      (.onInstance "org.slf4j.Logger" "info")
    let use (argument : Expr) : Expr := .methodCall none "use" [argument] none
    let moves (value : Expr) : Bool := (settings.replaceField? (field .log4j2) (declared .log4j2 value)
      (.ofClass (declared .log4j2 value))).isSome
    (moves (use bare) = false ∧ moves (use own) = true) ∧
      (engine.transform {} { classes := [declared .log4j2 (log bare)] }).1.map (·.unit.classes) =
        .ok [declared .slf4j moved] ∧
      (engine.transform {} { classes := [declared .log4j2 (log own)] }).1.map (·.unit.classes) =
        .ok [declared .slf4j (log own)] := by
  intro settings engine logger field bare own declared log moved use moves
  exact ⟨⟨by decide, by decide⟩, by decide, by decide⟩

end Engine

end LogCalls
