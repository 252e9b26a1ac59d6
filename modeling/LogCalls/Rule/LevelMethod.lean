import LogCalls.Rule.Basic

/-! # Methods for levels

`logger.log(Level.INFO, message)` on a logger of the platform becomes `logger.info(message)`. This
holds for messages that are strings or suppliers of strings, since others choose another method. -/

namespace LogCalls.LevelMethod

/-- The class of suppliers. -/
def supplierType : String := "java.util.function.Supplier"

/-- The levels that have a method of their own. -/
def methods : List (String × String) :=
  [("FINEST", "finest"), ("FINER", "finer"), ("FINE", "fine"), ("CONFIG", "config"),
   ("INFO", "info"), ("WARNING", "warning"), ("SEVERE", "severe")]

/-- The method of the level that the expression names. -/
def method? (level : Expr) : Option String := do
  methods.lookup (← Framework.jul.levelName? level)

/-- The message is a string, or a supplier of one. -/
def isPlainMessage (operand : Expr) : Bool :=
  match operand.bare with
  | .lambda [] _ => true
  | _ => operand.hasType fun type => type.isString || type.typeName == supplierType

/-- The call of the level's own method. -/
def replace? : Expr → Option Replacement
  | .methodCall select _ [level, operand] (some resolved) => do
      let method ← method? level
      if isPlainMessage operand then
        let levelType ← Framework.jul.levelType?
        return {
          expr := .methodCall select method [operand] (some { resolved with name := method })
          effects := ({} : Effects).releasing levelType }
      else none
  | _ => none

/-- The expression is a call of the method that takes a level and a message. -/
def isLevelCall : Expr → Bool
  | .methodCall _ "log" [_, _] (some resolved) =>
    resolved.declaringType == Framework.jul.loggerType
  | _ => false

/-- The rule. -/
def rule : Rule where
  name := "level-method"
  description := "Replaces JUL log(Level, message) with the level's own method"
  applies := fun expr _ => isLevelCall expr
  onExpr := fun expr _ => .ok (replace? expr)

end LogCalls.LevelMethod
