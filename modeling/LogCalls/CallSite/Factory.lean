import LogCalls.CallSite.Signature

/-! # Calls that ask for a logger

The key by which a logger is asked for, and the calls that ask. -/

namespace LogCalls

/-- How a call names the logger it asks for. -/
inductive LoggerKey where
  /-- By a class literal. -/
  | classObject (fqn : String)
  /-- By the name taken from a class literal. -/
  | className (fqn : String)
  /-- By some other expression of class type. -/
  | classExpr (expr : Expr)
  /-- By a string. -/
  | name (expr : Expr)
  /-- By nothing: the calling class is meant. -/
  | caller

/-- A recognised call. -/
structure FactoryCall where
  framework : Framework
  key : LoggerKey
  method : ResolvedMethod

namespace LoggerKey

/-- A key that is read off the type of the expression only. -/
def ofType? (expr : Expr) : Option LoggerKey := do
  let type ← expr.staticType
  if type.isString then some (.name expr)
  else if type.typeName = ClassName.classObject then some (.classExpr expr)
  else none

/-- The key that an argument is. -/
def ofExpr? (expr : Expr) : Option LoggerKey :=
  match expr.bare with
  | .classLiteral fqn => some (.classObject fqn)
  | .methodCall (some select) method [] _ =>
    if method = "getName" || method = "getCanonicalName" then
      match select.bare with
      | .classLiteral fqn => some (.className fqn)
      | _ => ofType? expr
    else ofType? expr
  | _ => ofType? expr

/-- The key that the arguments of a call are. -/
def ofArguments? : List Expr → Option LoggerKey
  | [] => some .caller
  | [key] => ofExpr? key
  | _ => none

end LoggerKey

/-- The recognised call that an expression is. -/
def FactoryCall.recognize? : Expr → Option FactoryCall
  | .methodCall select name arguments (some method) => do
      let signature ← resolveSignature? select name method
      if signature.shape = .factory then
        return {
          framework := ← signature.framework, key := ← LoggerKey.ofArguments? arguments, method }
      else none
  | _ => none

end LogCalls
