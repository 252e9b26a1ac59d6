import LogCalls.Framework.Signature

/-! # Signatures of calls

The recognised method that a call invokes. A method that is declared on a subclass is recognised
through the ancestors of the receiver's class. -/

namespace LogCalls

/-- The recognised method behind an invocation, by the class that declares it or else by the nearest
class in the receiver's ancestry that has one. -/
def resolveSignature? (select : Option Expr) (name : String) (method : ResolvedMethod) :
    Option Signature :=
  match Signature.find? method.declaringType name with
  | some signature => some signature
  | none => do
      let receiver ← select
      let type ← receiver.staticType
      let receiverClass ← type.classType?
      receiverClass.ancestry.findSome? fun entry => Signature.find? entry.fqn name

/-- The recognised method that the expression calls. -/
def Expr.signature? : Expr → Option Signature
  | .methodCall select name _ (some method) => resolveSignature? select name method
  | _ => none

namespace Framework

/-- The expression is a marker of the framework. -/
def isMarker (framework : Framework) (expr : Expr) : Bool :=
  framework.markerType?.any fun markerType => expr.hasType (·.isAssignableTo markerType)

/-- Arguments split into a leading marker, if there is one, and the rest. -/
def splitMarker (framework : Framework) : List Expr → Option Expr × List Expr
  | [] => (none, [])
  | first :: rest =>
    if framework.isMarker first then (some first, rest) else (none, first :: rest)

/-- The name of a level constant of the framework, if the expression is one. -/
def levelName? (framework : Framework) (expr : Expr) : Option String := do
  let levelType ← framework.levelType?
  match expr.bare with
  | .fieldAccess target name type =>
    let named := match target with
      | .typeRef fqn => fqn == levelType
      | _ => false
    if named || type.any (·.typeName == levelType) then some name else none
  | _ => none

/-- The severity of a level constant of the framework, if the expression is one. -/
def levelSeverity? (framework : Framework) (expr : Expr) : Option Severity := do
  framework.severityOfLevel? (← framework.levelName? expr)

end Framework

end LogCalls
