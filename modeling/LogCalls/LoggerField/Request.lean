import LogCalls.Emission.Factory
import LogCalls.Tree.Unit

/-! # Requests for logger fields

The logger field that a class is to be given. -/

namespace LogCalls

/-- A logger field to be declared. -/
structure FieldRequest where
  /-- Full name of the class that gets the field, which is also the key of its logger. -/
  ownerType : String
  fieldName : String
  framework : Framework
  isStatic : Bool := true
  isFinal : Bool := true
  deriving DecidableEq

namespace FieldRequest

/-- The type of the field. -/
def fieldType (request : FieldRequest) : JavaType := .named request.framework.loggerType

/-- The field as the receiver of a call. -/
def receiver (request : FieldRequest) : Expr := .ident request.fieldName request.fieldType

/-- The declaration of the field. -/
def declaration (request : FieldRequest) : FieldDecl where
  name := request.fieldName
  type := request.fieldType
  modifiers := {
    visibility := .privateAccess, isStatic := request.isStatic, isFinal := request.isFinal }
  initializer := some
    (request.framework.factoryCall (.classObject request.ownerType) request.ownerType)

/-- The classes that the declaration needs imported. -/
def imports (request : FieldRequest) : List String :=
  let logger := request.framework.loggerType
  let factory := request.framework.factoryType
  if factory = logger then [logger] else [logger, factory]

end FieldRequest

end LogCalls
