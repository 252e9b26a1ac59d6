import LogCalls.CallSite.Factory

/-! # Asking for a logger

The usual way to ask a framework for a logger with a given key. -/

namespace LogCalls

/-- The name of the class that an expression gives. -/
def Expr.classNameCall (classObject : Expr) : Expr :=
  .call classObject "getName" [] (.onInstanceReturning ClassName.classObject "getName" .string)

namespace LoggerKey

/-- The arguments that name a logger to a framework that asks for a string. `owner` is the calling
class. -/
def nameArguments (owner : String) : LoggerKey → List Expr
  | .classObject fqn => [(Expr.classLiteral fqn).classNameCall]
  | .className fqn => [(Expr.classLiteral fqn).classNameCall]
  | .classExpr expr => [expr.classNameCall]
  | .name expr => [expr]
  | .caller => [(Expr.classLiteral owner).classNameCall]

/-- The arguments that name a logger to a framework that takes classes. One of the frameworks finds
the calling class by itself. -/
def classArguments (target : Framework) (owner : String) : LoggerKey → List Expr
  | .classObject fqn => [.classLiteral fqn]
  | .className fqn => [.classLiteral fqn]
  | .classExpr expr => [expr]
  | .name expr => [expr]
  | .caller => if target = .log4j2 then [] else [.classLiteral owner]

end LoggerKey

/-- The call that asks the framework for the logger with this key. -/
def Framework.factoryCall (target : Framework) (key : LoggerKey) (owner : String) : Expr :=
  let arguments := if target.isKeyedByName then key.nameArguments owner
    else key.classArguments target owner
  .staticCall target.factoryType target.factoryMethod arguments (.named target.loggerType)

end LogCalls
