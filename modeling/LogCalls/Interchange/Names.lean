import LogCalls.Framework.Basic
import LogCalls.Interchange.Decoder
import LogCalls.Tree.Unit

/-! # Names of alternatives

The words by which documents name the alternatives that have no content, each table listing every
alternative once. -/

namespace LogCalls.Interchange

/-- The word for an alternative in a table, or nothing if it is not listed. -/
def wordFor {α : Type} [DecidableEq α] (table : List (String × α)) (value : α) : Json :=
  match table.find? (·.2 = value) with
  | some (word, _) => .string word
  | none => .null

/-- Primitive types. -/
def primitives : List (String × Primitive) :=
  [("Boolean", .boolean), ("Byte", .byte), ("Char", .char), ("Short", .short), ("Int", .int),
   ("Long", .long), ("Float", .float), ("Double", .double), ("String", .string), ("Null", .null),
   ("Void", .void)]

/-- Visibilities. -/
def visibilities : List (String × Visibility) :=
  [("Public", .publicAccess), ("Protected", .protectedAccess), ("Package", .packageAccess),
   ("Private", .privateAccess)]

/-- Binary operators. -/
def operators : List (String × BinaryOperator) :=
  [("Add", .add), ("Subtract", .subtract), ("Multiply", .multiply), ("Divide", .divide),
   ("Modulo", .modulo), ("Equal", .equal), ("NotEqual", .notEqual), ("LessThan", .lessThan),
   ("LessEqual", .lessEqual), ("GreaterThan", .greaterThan), ("GreaterEqual", .greaterEqual),
   ("And", .and), ("Or", .or)]

/-- Kinds of classes. -/
def classKinds : List (String × ClassKind) :=
  [("class", .classKind), ("interface", .interfaceKind)]

/-- Severities. -/
def severities : List (String × Severity) := Severity.all.map fun severity => (severity.name, severity)

/-- Frameworks. -/
def frameworks : List (String × Framework) :=
  Framework.all.map fun framework => (framework.name, framework)

end LogCalls.Interchange
