import LogCalls.CallSite.Check
import LogCalls.Emission.Check
import LogCalls.Emission.Log
import LogCalls.Rule.Basic

/-! # Migration to another framework

Logger fields, the factory calls that initialize them, and the calls and checks on them move to
another framework. A field moves only if it is initialized by a known factory call and every use of
it in its class can be carried over; calls follow once their field has moved. Calls with a marker do
not move, since other frameworks have none. -/

namespace LogCalls

/-- Settings of the rule. -/
structure Migrate where
  target : Framework
  /-- The frameworks that are left. -/
  sources : List Framework
  severityPolicy : SeverityPolicy := {}
  recognize : RecognizeOptions := {}

/-- A use of a logger that has a counterpart in every framework. -/
inductive LoggerUse where
  /-- A call that logs. -/
  | log (call : LogCall)
  /-- A check that a severity is enabled. -/
  | check (found : LevelCheck)

namespace LoggerUse

/-- The logger that is used. -/
def receiver : LoggerUse → Expr
  | log call => call.receiver
  | check found => found.receiver

/-- The severity is given by a level argument. -/
def hasLevelArgument : LoggerUse → Bool
  | log call => call.hasLevelArgument
  | check found => found.hasLevelArgument

/-- The framework that is used. -/
def framework? : LoggerUse → Option Framework
  | log call => call.origin.framework?
  | check found => some found.framework

end LoggerUse

/-- A variable or field with another type. -/
def Expr.retyped? (type : JavaType) : Expr → Option Expr
  | .identifier name _ => some (.identifier name (some type))
  | .fieldAccess target name _ => some (.fieldAccess target name (some type))
  | _ => none

namespace Migrate

/-- Migration to the target from every other framework. -/
def toward (target : Framework) : Migrate where
  target := target
  sources := Framework.all.filter (· != target)

/-- Calls of the framework are migrated. -/
def migrates (settings : Migrate) (framework : Framework) : Bool :=
  framework != settings.target && settings.sources.contains framework

/-- The type of loggers in the target framework. -/
def loggerType (settings : Migrate) : JavaType := .named settings.target.loggerType

/-- The use of a logger that the expression is, if it can be carried over. -/
def plan? (settings : Migrate) (expr : Expr) : Option LoggerUse :=
  match LogCall.recognize? settings.recognize expr with
  | some call => do
      let framework ← call.origin.framework?
      if settings.migrates framework && call.marker.isNone then
        let _ ← call.receiver.retyped? settings.loggerType
        some (.log call)
      else none
  | none => do
      let check ← LevelCheck.recognize? expr
      if settings.migrates check.framework then
        let _ ← check.receiver.retyped? settings.loggerType
        some (.check check)
      else none

/-- The use of a logger in the target framework. -/
def emit? (settings : Migrate) (use : LoggerUse) : Option Replacement := do
  let receiver ← use.receiver.retyped? settings.loggerType
  let replacement ← match use with
    | .log call => some (call.toLogEvent.emit settings.target settings.severityPolicy receiver)
    | .check found =>
      settings.target.emitCheck? found.severity settings.severityPolicy receiver
  let framework ← use.framework?
  match framework.levelType? with
  | some levelType =>
    if use.hasLevelArgument then replacement.withEffects (({} : Effects).releasing levelType)
    else replacement
  | none => replacement

/-- A use of a logger whose field has moved to the target framework already. -/
def replace? (settings : Migrate) (expr : Expr) (scope : Scope) : Option Replacement := do
  let use ← settings.plan? expr
  let field ← scope.fieldFor? use.receiver
  if field.type.typeName = settings.target.loggerType then settings.emit? use else none

/-- A factory call of the framework, written for the target. -/
def initializer? (settings : Migrate) (framework : Framework) (owner : String) (initial : Expr) :
    Option Replacement := do
  let factory ← FactoryCall.recognize? initial
  if factory.framework = framework then
    (settings.target.emitFactory factory.key owner).withEffects
      ((({} : Effects).releasing factory.method.declaringType).releasing framework.factoryType)
  else none

/-! ## The uses of a field -/

/-- A field, by the class that declares it and its name. -/
structure FieldName where
  owner : String
  name : String

/-- The expression refers to the field. A bare name does not if it is shadowed by a field of a nested
class. -/
def refersTo (field : FieldName) (shadowed : Bool) (expr : Expr) : Bool :=
  match expr.bare with
  | .identifier name _ => !shadowed && name == field.name
  | .fieldAccess (.typeRef fqn) name _ => name == field.name && fqn == field.owner
  | _ => false

mutual

/-- Every use of the field in the expression can be carried over. -/
def exprMigrates (settings : Migrate) (field : FieldName) (shadowed : Bool) : Expr → Bool
  | .literal _ => true
  | .identifier name _ => shadowed || name != field.name
  | .typeRef _ => true
  | .fieldAccess target name type =>
    !refersTo field shadowed (.fieldAccess target name type) &&
      exprMigrates settings field shadowed target
  | .methodCall (some select) name arguments method =>
    (if refersTo field shadowed select then
      (settings.plan? (.methodCall (some select) name arguments method)).isSome
    else exprMigrates settings field shadowed select) &&
      exprsMigrate settings field shadowed arguments
  | .methodCall none _ arguments _ => exprsMigrate settings field shadowed arguments
  | .binary _ left right _ =>
    exprMigrates settings field shadowed left && exprMigrates settings field shadowed right
  | .newClass _ arguments => exprsMigrate settings field shadowed arguments
  | .newArray _ elements => exprsMigrate settings field shadowed elements
  | .classLiteral _ => true
  | .lambda parameters body =>
    (shadowed || !parameters.contains field.name) && blockMigrates settings field shadowed body
  | .parens inner => exprMigrates settings field shadowed inner

/-- Every use of the field in the expressions can be carried over. -/
def exprsMigrate (settings : Migrate) (field : FieldName) (shadowed : Bool) : List Expr → Bool
  | [] => true
  | expr :: rest =>
    exprMigrates settings field shadowed expr && exprsMigrate settings field shadowed rest

/-- Every use of the field in the statement can be carried over, and no local variable hides it. -/
def statementMigrates (settings : Migrate) (field : FieldName) (shadowed : Bool) : Statement → Bool
  | .expression value => exprMigrates settings field shadowed value
  | .declaration name _ (some initial) =>
    (shadowed || name != field.name) && exprMigrates settings field shadowed initial
  | .declaration name _ none => shadowed || name != field.name
  | .block body => blockMigrates settings field shadowed body
  | .conditional condition thenBranch (some elseBranch) =>
    exprMigrates settings field shadowed condition &&
      blockMigrates settings field shadowed thenBranch &&
      blockMigrates settings field shadowed elseBranch
  | .conditional condition thenBranch none =>
    exprMigrates settings field shadowed condition &&
      blockMigrates settings field shadowed thenBranch
  | .guarded body catches (some finallyBlock) =>
    blockMigrates settings field shadowed body &&
      catchesMigrate settings field shadowed catches &&
      blockMigrates settings field shadowed finallyBlock
  | .guarded body catches none =>
    blockMigrates settings field shadowed body && catchesMigrate settings field shadowed catches
  | .returning (some value) => exprMigrates settings field shadowed value
  | .returning none => true

/-- Every use of the field in the block can be carried over, and no local variable hides it. -/
def blockMigrates (settings : Migrate) (field : FieldName) (shadowed : Bool) :
    List Statement → Bool
  | [] => true
  | statement :: rest =>
    statementMigrates settings field shadowed statement &&
      blockMigrates settings field shadowed rest

/-- Every use of the field in the handlers can be carried over, and no parameter hides it. -/
def catchesMigrate (settings : Migrate) (field : FieldName) (shadowed : Bool) :
    List CatchClause → Bool
  | [] => true
  | .handler parameter _ body :: rest =>
    (shadowed || parameter != field.name) && blockMigrates settings field shadowed body &&
      catchesMigrate settings field shadowed rest

end

/-- Every use of the field in the initializers of the class can be carried over; its own initializer
does not count. -/
def fieldsMigrate (settings : Migrate) (field : FieldName) (shadowed : Bool) (owner : String)
    (fields : List FieldDecl) : Bool :=
  (fields.filter fun other => !(owner == field.owner && other.name == field.name)).all fun other =>
    other.initializer.all (exprMigrates settings field shadowed)

/-- Every use of the field in the methods can be carried over, and no parameter hides it. -/
def methodsMigrate (settings : Migrate) (field : FieldName) (shadowed : Bool)
    (methods : List MethodDecl) : Bool :=
  methods.all fun method =>
    !(method.parameters.any (·.name == field.name)) &&
      blockMigrates settings field shadowed method.body

mutual

/-- Every use of the field in the class can be carried over. Inside a nested class that declares a
field of the same name, only qualified names refer to the field. -/
def usesMigrate (settings : Migrate) (field : FieldName) (shadowed : Bool) : ClassDecl → Bool
  | .decl header fields methods nested =>
    fieldsMigrate settings field shadowed header.fqn fields &&
      methodsMigrate settings field shadowed methods &&
      nestedMigrate settings field shadowed nested

/-- Every use of the field in the nested classes can be carried over. -/
def nestedMigrate (settings : Migrate) (field : FieldName) (shadowed : Bool) :
    List ClassDecl → Bool
  | [] => true
  | first :: rest =>
    usesMigrate settings field (shadowed || first.fields.any (·.name == field.name)) first &&
      nestedMigrate settings field shadowed rest

end

/-! ## The rule -/

/-- A logger field in the target framework, if it and all of its uses can be carried over. -/
def replaceField? (settings : Migrate) (field : FieldDecl) (declared : ClassDecl) (scope : Scope) :
    Option FieldReplacement := do
  let framework ← Framework.ofLoggerType? field.type.typeName
  if settings.migrates framework then
    let initial ← field.initializer
    let replacement ← settings.initializer? framework scope.current.fqn initial
    if usesMigrate settings { owner := declared.fqn, name := field.name } false declared then
      return {
        field := { field with type := settings.loggerType, initializer := some replacement.expr }
        effects := (replacement.effects.importing settings.target.loggerType).releasing
          framework.loggerType }
    else none
  else none

/-- The rule. -/
def rule (settings : Migrate) : Rule where
  name := "migrate"
  description := "Migrates logger fields, factories and calls to the target logging framework"
  priority := 200
  applies := fun expr _ => expr.isResolvedCall
  onExpr := fun expr scope => .ok (settings.replace? expr scope)
  onField := fun field declared scope => .ok (settings.replaceField? field declared scope)

end Migrate

end LogCalls
