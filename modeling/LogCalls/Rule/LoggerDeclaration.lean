import LogCalls.Rule.Basic

/-! # Declarations of loggers

Loggers are named after their class: one that is asked for with another class is asked for with the
class it stands in, and the form of the key, a class or the name of a class, is kept.

Logger fields of concrete classes are made private. Fields of interfaces are public by nature, and
abstract classes usually share their logger with subclasses, so both are left alone. -/

namespace LogCalls.EnclosingClass

/-- The key names another class than the owner. -/
def isStale (owner : String) : LoggerKey → Bool
  | .classObject fqn => fqn != owner
  | .className fqn => fqn != owner
  | .classExpr _ => true
  | .name _ => false
  | .caller => false

/-- The argument that names the owner in the form of the key that is replaced. -/
def newKey (owner : String) (key : LoggerKey) (argument : Option Expr) : Expr :=
  match key, argument.map Expr.bare with
  | .className _, some (.methodCall _ name _ method) =>
    .methodCall (some (.classLiteral owner)) name [] method
  | _, _ => .classLiteral owner

/-- The call with the owner as key. -/
def replace? (expr : Expr) (scope : Scope) : Option Replacement := do
  let factory ← FactoryCall.recognize? expr
  let owner := scope.current.fqn
  match expr with
  | .methodCall select name arguments method =>
    if isStale owner factory.key then
      some { expr := .methodCall select name [newKey owner factory.key arguments.head?] method }
    else none
  | _ => none

/-- The rule. -/
def rule : Rule where
  name := "enclosing-class"
  description := "Names loggers after the class that declares them"
  applies := fun expr scope => !scope.current.fqn.isEmpty && expr.isResolvedCall
  onExpr := fun expr scope => .ok (replace? expr scope)

end LogCalls.EnclosingClass

namespace LogCalls.PrivateLogger

/-- The field made private, if it is a logger that should be. -/
def replaceField? (field : FieldDecl) (declared : ClassDecl) : Option FieldReplacement :=
  let isLogger := (Framework.ofLoggerType? field.type.typeName).isSome
  let isConcrete := declared.header.kind == .classKind && !declared.header.isAbstract
  if field.modifiers.visibility != .privateAccess && isLogger && isConcrete then
    some { field := {
      field with modifiers := { field.modifiers with visibility := .privateAccess } } }
  else none

/-- The rule. -/
def rule : Rule where
  name := "private-loggers"
  description := "Declares logger fields private"
  applies := fun _ _ => false
  onExpr := fun _ _ => .ok none
  onField := fun field declared _ => .ok (replaceField? field declared)

end LogCalls.PrivateLogger
