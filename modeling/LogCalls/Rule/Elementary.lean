import LogCalls.Rule.Basic

/-! # Elementary rules

Small rules that do one thing to nodes of a given name: rename them, fail on them, or drop a
statement. They show the engine's behaviour without any knowledge of logging. -/

namespace LogCalls

/-- Effects that are the same for every node but for the class they ask a field for. -/
structure FixedEffects where
  addImports : List String := []
  removeImports : List String := []
  /-- The name and framework of a logger field to be declared. -/
  field : Option (String × Framework) := none

/-- The effects for a node in the given scope. -/
def FixedEffects.effects (fixed : FixedEffects) (scope : Scope) : Effects :=
  let imports := fixed.removeImports.foldl Effects.releasing
    (fixed.addImports.foldl Effects.importing {})
  match fixed.field with
  | some (fieldName, framework) =>
    imports.requesting { ownerType := scope.current.fqn, fieldName, framework }
  | none => imports

namespace Rule

/-- The expression is a bare name. -/
def isIdentifier : Expr → Bool
  | .identifier _ _ => true
  | _ => false

/-- Rename identifiers and fields. -/
def rename (name : String) (priority : Nat) (source target : String) (fixed : FixedEffects) :
    Rule where
  name := name
  description := "Renames identifiers and fields"
  priority := priority
  applies := fun expr _ => isIdentifier expr
  onExpr := fun expr scope => .ok (match expr with
    | .identifier found type =>
      if found = source then
        some { expr := .identifier target type, effects := fixed.effects scope }
      else none
    | _ => none)
  onField := fun field _ scope => .ok (
    if field.name = source then
      some { field := { field with name := target }, effects := fixed.effects scope }
    else none)

/-- Fail on identifiers of a given name. -/
def failOnIdentifier (name : String) (priority : Nat) (source reason : String) : Rule where
  name := name
  description := "Fails on identifiers"
  priority := priority
  applies := fun expr _ => isIdentifier expr
  onExpr := fun expr _ => match expr with
    | .identifier found _ => if found = source then .error reason else .ok none
    | _ => .ok none

/-- Fail on every block. -/
def failOnBlock (name : String) (priority : Nat) (reason : String) : Rule where
  name := name
  description := "Fails on blocks"
  priority := priority
  applies := fun _ _ => false
  onExpr := fun _ _ => .ok none
  onBlock := fun _ _ => .error reason

/-- Fail on fields of a given name. -/
def failOnField (name : String) (priority : Nat) (source reason : String) : Rule where
  name := name
  description := "Fails on fields"
  priority := priority
  applies := fun _ _ => false
  onExpr := fun _ _ => .ok none
  onField := fun field _ _ => if field.name = source then .error reason else .ok none

/-- Drop the first statement of every block that has one. -/
def dropFirst (name : String) (priority : Nat) (fixed : FixedEffects) : Rule where
  name := name
  description := "Drops first statements"
  priority := priority
  applies := fun _ _ => false
  onExpr := fun _ _ => .ok none
  onBlock := fun block scope => .ok (match block with
    | [] => none
    | _ :: rest => some { statements := rest, effects := fixed.effects scope })

end Rule

end LogCalls
