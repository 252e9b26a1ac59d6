import LogCalls.Emission.Effects
import LogCalls.LoggerField.Scope

/-! # Rules

A rule looks at a node and at its surroundings and says what should stand in its place. Rules
change nothing by themselves; the engine does that. -/

namespace LogCalls

/-- What a rule makes of a node: a failure with its reason, nothing, or a replacement. -/
abbrev Offer (α : Type) := Except String (Option α)

/-- New statements for a whole block. -/
structure BlockReplacement where
  statements : List Statement
  effects : Effects := {}
  deriving DecidableEq

/-- A new declaration for a field. -/
structure FieldReplacement where
  field : FieldDecl
  effects : Effects := {}
  deriving DecidableEq

/-- A rule. -/
structure Rule where
  name : String
  description : String
  /-- Rules of higher priority run first. -/
  priority : Nat := 100
  /-- A quick test whether the rule could have anything to say about an expression. -/
  applies : Expr → Scope → Bool
  /-- What the rule makes of an expression. -/
  onExpr : Expr → Scope → Offer Replacement
  /-- What the rule makes of the statements of a block together. -/
  onBlock : List Statement → Scope → Offer BlockReplacement := fun _ _ => .ok none
  /-- What the rule makes of a field of a class. -/
  onField : FieldDecl → ClassDecl → Scope → Offer FieldReplacement := fun _ _ _ => .ok none

namespace Rule

/-- The first replacement that a list of offers holds; a failure before it is a failure. -/
def firstOffer {α : Type} : List (Offer α) → Offer α
  | [] => .ok none
  | .error reason :: _ => .error reason
  | .ok (some replacement) :: _ => .ok (some replacement)
  | .ok none :: rest => firstOffer rest

/-- Several rules under one name. Each node is offered to them in order, and the first replacement
wins. -/
def bundle (name description : String) (rules : List Rule) : Rule where
  name := name
  description := description
  priority := ((rules.map (·.priority)).max?).getD 100
  applies := fun expr scope => rules.any (·.applies expr scope)
  onExpr := fun expr scope =>
    firstOffer ((rules.filter (·.applies expr scope)).map (·.onExpr expr scope))
  onBlock := fun block scope => firstOffer (rules.map (·.onBlock block scope))
  onField := fun field declared scope => firstOffer (rules.map (·.onField field declared scope))

/-- Rules in the order in which they run: by descending priority, and as given among equals. -/
def byPriority (rules : List Rule) : List Rule :=
  rules.mergeSort fun first second => decide (second.priority ≤ first.priority)

end Rule

end LogCalls
