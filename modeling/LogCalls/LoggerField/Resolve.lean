import LogCalls.LoggerField.Request
import LogCalls.LoggerField.Scope

/-! # Finding a logger

The logger that a new call in a class uses: one that the class has, or a field that it is given. -/

namespace LogCalls

/-- The name of the field that a logging annotation generates. -/
def annotatedFieldName : String := "log"

/-- Whether and how a class without a logger is given one. -/
structure LoggerPolicy where
  fieldName : String := "logger"
  addIfMissing : Bool := true

/-- The logger that a call is to use. -/
inductive LoggerChoice where
  /-- A field that the class has. -/
  | existing (name : String) (framework : Framework)
  /-- A field that the class is to be given. -/
  | injected (request : FieldRequest)

namespace LoggerChoice

/-- The logger as the receiver of a call. -/
def receiver : LoggerChoice → Expr
  | existing name framework => .ident name (.named framework.loggerType)
  | injected request => request.receiver

/-- The field that the class has to be given. -/
def request? : LoggerChoice → Option FieldRequest
  | existing _ _ => none
  | injected request => some request

end LoggerChoice

namespace ClassScope

/-- The declared field that serves as logger, static fields before others. -/
def declaredLogger? (scope : ClassScope) (framework : Framework) : Option FieldDecl :=
  let loggers := scope.fields.filter (·.type.isAssignableTo framework.loggerType)
  (loggers.find? (·.modifiers.isStatic)).or loggers.head?

/-- The name of a logger that the class has: generated by an annotation, declared, or inherited. -/
def loggerName? (scope : ClassScope) (framework : Framework) : Option String :=
  if scope.annotations.contains framework.loggerAnnotation then some annotatedFieldName
  else ((scope.declaredLogger? framework).map (·.name)).or
    (scope.inheritedField? (·.typeName == framework.loggerType))

/-- The logger of a framework for calls in the class. A field is added only if there is no logger
and its name is free. -/
def chooseLogger? (scope : ClassScope) (framework : Framework) (policy : LoggerPolicy) :
    Option LoggerChoice :=
  match scope.loggerName? framework with
  | some name => some (.existing name framework)
  | none =>
    if policy.addIfMissing && !scope.hasFieldNamed policy.fieldName then
      some (.injected {
        ownerType := scope.fqn, fieldName := policy.fieldName, framework })
    else none

end ClassScope

end LogCalls
