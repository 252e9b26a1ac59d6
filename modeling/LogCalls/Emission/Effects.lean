import LogCalls.LoggerField.Request

/-! # Effects of a replacement

What the file around a replaced node needs, so that the new node makes sense in it. -/

namespace LogCalls

/-- A list with one more element at its end, unless it has it already. -/
def addOnce (names : List String) (name : String) : List String :=
  if names.contains name then names else names ++ [name]

/-- What a replacement needs of the file around it. -/
structure Effects where
  addImports : List String := []
  /-- Dropped only if the class is not named any more. -/
  removeImports : List String := []
  field : Option FieldRequest := none
  deriving DecidableEq

namespace Effects

/-- The effects with one more import. -/
def importing (effects : Effects) (fqn : String) : Effects :=
  { effects with addImports := addOnce effects.addImports fqn }

/-- The effects with one more import that may be dropped. -/
def releasing (effects : Effects) (fqn : String) : Effects :=
  { effects with removeImports := addOnce effects.removeImports fqn }

/-- The effects with a field to declare, and the imports it needs. -/
def requesting (effects : Effects) (request : FieldRequest) : Effects :=
  { request.imports.foldl importing effects with field := some request }

/-- The effects of two replacements, one after the other. -/
def merge (effects later : Effects) : Effects where
  addImports := later.addImports.foldl addOnce effects.addImports
  removeImports := later.removeImports.foldl addOnce effects.removeImports
  field := later.field.or effects.field

/-- There is nothing to do. -/
def isEmpty (effects : Effects) : Bool :=
  effects.addImports.isEmpty && effects.removeImports.isEmpty && effects.field.isNone

end Effects

/-- A new expression and what the file needs for it. -/
structure Replacement where
  expr : Expr
  effects : Effects := {}
  deriving DecidableEq

/-- The replacement with further effects. -/
def Replacement.withEffects (replacement : Replacement) (later : Effects) : Replacement :=
  { replacement with effects := replacement.effects.merge later }

end LogCalls
