import LogCalls.Tree.Type

/-! # Expressions and statements

The tree that rules look at and transform. String and character literals hold the raw source text
between their quotes, so escape sequences survive untouched. A missing type means that the front
end could not tell it. -/

namespace LogCalls

/-- Literals. Texts are kept as they are spelled in source. -/
inductive Literal where
  | string (raw : String)
  | char (raw : String)
  | number (raw : String)
  | boolean (value : Bool)
  | null
  deriving DecidableEq, Repr

/-- Binary operators. -/
inductive BinaryOperator where
  | add
  | subtract
  | multiply
  | divide
  | modulo
  | equal
  | notEqual
  | lessThan
  | lessEqual
  | greaterThan
  | greaterEqual
  | and
  | or
  deriving DecidableEq, Repr

/-- The operator as written in source. -/
def BinaryOperator.symbol : BinaryOperator → String
  | add => "+"
  | subtract => "-"
  | multiply => "*"
  | divide => "/"
  | modulo => "%"
  | equal => "=="
  | notEqual => "!="
  | lessThan => "<"
  | lessEqual => "<="
  | greaterThan => ">"
  | greaterEqual => ">="
  | and => "&&"
  | or => "||"

mutual

/-- Expressions. -/
inductive Expr where
  /-- A literal. -/
  | literal (value : Literal)
  /-- A variable, parameter or field that is named without qualification. -/
  | identifier (name : String) (type : Option JavaType)
  /-- A class named as the qualifier of something else. -/
  | typeRef (fqn : String)
  /-- A field of an object or of a class. -/
  | fieldAccess (target : Expr) (name : String) (type : Option JavaType)
  /-- An invocation, with its receiver if one is written. -/
  | methodCall (select : Option Expr) (name : String) (arguments : List Expr)
      (method : Option ResolvedMethod)
  /-- A binary operation. -/
  | binary (operator : BinaryOperator) (left right : Expr) (type : Option JavaType)
  /-- The creation of an object. -/
  | newClass (type : JavaType) (arguments : List Expr)
  /-- The creation of an array from its elements. -/
  | newArray (element : JavaType) (elements : List Expr)
  /-- The class object of a class. -/
  | classLiteral (fqn : String)
  /-- An anonymous function with a block as its body. -/
  | lambda (parameters : List String) (body : List Statement)
  /-- An expression in parentheses. -/
  | parens (inner : Expr)

/-- Statements. -/
inductive Statement where
  /-- An expression evaluated for its effect. -/
  | expression (value : Expr)
  /-- The declaration of a local variable. -/
  | declaration (name : String) (type : JavaType) (initial : Option Expr)
  /-- Statements in braces. -/
  | block (body : List Statement)
  /-- A conditional. -/
  | conditional (condition : Expr) (thenBranch : List Statement)
      (elseBranch : Option (List Statement))
  /-- A protected block with its handlers. -/
  | guarded (body : List Statement) (catches : List CatchClause)
      (finallyBlock : Option (List Statement))
  /-- The return from a method. -/
  | returning (value : Option Expr)

/-- The handler of one kind of exception. -/
inductive CatchClause where
  /-- A handler with its parameter, the type it catches and its body. -/
  | handler (parameter : String) (type : JavaType) (body : List Statement)

end

namespace Literal

/-- The type of a numeral, read off its prefix, suffix and decimal marks. -/
def numeralType (raw : String) : Primitive :=
  let lower := raw.toList.map Char.toLower
  let suffix := lower.getLast?
  if ['0', 'x'].isPrefixOf lower then
    if suffix = some 'l' then .long else .int
  else if suffix = some 'l' then .long
  else if suffix = some 'f' then .float
  else if suffix = some 'd' || lower.contains '.' || lower.contains 'e' then .double
  else .int

/-- The type of a literal. -/
def type : Literal → Primitive
  | string _ => .string
  | char _ => .char
  | number raw => numeralType raw
  | boolean _ => .boolean
  | null => .null

end Literal

namespace Expr

/-- A string literal with the given raw text. -/
def string (raw : String) : Expr := .literal (.string raw)

/-- A name of known type. -/
def ident (name : String) (type : JavaType) : Expr := .identifier name (some type)

/-- A call on a receiver. -/
def call (select : Expr) (name : String) (arguments : List Expr) (method : ResolvedMethod) : Expr :=
  .methodCall (some select) name arguments (some method)

/-- A call of a static method, written with the class that declares it. -/
def staticCall (fqn name : String) (arguments : List Expr) (type : JavaType) : Expr :=
  .call (.typeRef fqn) name arguments (.onClassReturning fqn name type)

/-- A static field that is typed by the class that declares it, such as an enumeration constant. -/
def constant (fqn name : String) : Expr := .fieldAccess (.typeRef fqn) name (some (.named fqn))

/-- The concatenation of two operands into a string. -/
def concat (left right : Expr) : Expr := .binary .add left right (some .string)

/-- The concatenation of all operands, associated to the left. -/
def concatAll : List Expr → Option Expr
  | [] => none
  | first :: rest => some (rest.foldl concat first)

/-- An array of objects. -/
def objectArray (elements : List Expr) : Expr := .newArray (.named ClassName.object) elements

/-- The type of an expression, when it is known. -/
def staticType : Expr → Option JavaType
  | .literal value => some (.primitive value.type)
  | .identifier _ type => type
  | .typeRef _ => none
  | .fieldAccess _ _ type => type
  | .methodCall _ _ _ method => method.bind (·.returnType)
  | .binary _ _ _ type => type
  | .newClass type _ => some type
  | .newArray element _ => some (.array element)
  | .classLiteral _ => some (.named ClassName.classObject)
  | .lambda _ _ => none
  | .parens inner => inner.staticType

/-- The expression inside any number of enclosing parentheses. -/
def bare : Expr → Expr
  | .parens inner => inner.bare
  | other => other

/-- The raw text of a string literal that stands without parentheses. -/
def stringLiteral? : Expr → Option String
  | .literal (.string raw) => some raw
  | _ => none

/-- The method that a call resolves to. -/
def resolvedMethod? : Expr → Option ResolvedMethod
  | .methodCall _ _ _ method => method
  | _ => none

/-- The expression's type is known and satisfies a test. -/
def hasType (test : JavaType → Bool) (expr : Expr) : Bool := expr.staticType.any test

/-- The expression is known to be a string. -/
def isString (expr : Expr) : Bool := expr.hasType JavaType.isString

/-- The expression is known to be throwable. -/
def isThrowable (expr : Expr) : Bool := expr.hasType JavaType.isThrowable

/-- The expression is known to be an array. -/
def isArray (expr : Expr) : Bool := expr.hasType JavaType.isArray

/-- The expression is a call whose method is known. -/
def isResolvedCall : Expr → Bool
  | .methodCall _ _ _ (some _) => true
  | _ => false

/-- Parentheses keep the type. -/
@[simp] theorem staticType_parens (inner : Expr) :
    (Expr.parens inner).staticType = inner.staticType := by rw [staticType]

/-- Parentheses are taken off. -/
@[simp] theorem bare_parens (inner : Expr) :
    (Expr.parens inner).bare = inner.bare := by rw [bare]

end Expr

end LogCalls
