import LogCalls.Tree.Unit

/-! # Type references and imports

Which classes a unit names in its source text, and how its imports follow. -/

namespace LogCalls

/-- The classes that are named when the type is written out. -/
def JavaType.references : JavaType → List String
  | .primitive _ => []
  | .classType type => [type.fqn]
  | .array element => element.references

mutual

/-- The classes that an expression names. -/
@[grind =] def Expr.references : Expr → List String
  | .literal _ => []
  | .identifier _ _ => []
  | .typeRef fqn => [fqn]
  | .fieldAccess target _ _ => target.references
  | .methodCall (some select) _ arguments _ =>
    select.references ++ Expr.referencesList arguments
  | .methodCall none _ arguments _ => Expr.referencesList arguments
  | .binary _ left right _ => left.references ++ right.references
  | .newClass type arguments => type.references ++ Expr.referencesList arguments
  | .newArray element elements => element.references ++ Expr.referencesList elements
  | .classLiteral fqn => [fqn]
  | .lambda _ body => Statement.referencesList body
  | .parens inner => inner.references

/-- The classes that a list of expressions names. -/
@[grind =] def Expr.referencesList : List Expr → List String
  | [] => []
  | expr :: rest => expr.references ++ Expr.referencesList rest

/-- The classes that a statement names. -/
@[grind =] def Statement.references : Statement → List String
  | .expression value => value.references
  | .declaration _ type (some initial) => type.references ++ initial.references
  | .declaration _ type none => type.references
  | .block body => Statement.referencesList body
  | .conditional condition thenBranch (some elseBranch) =>
    condition.references ++ Statement.referencesList thenBranch ++
      Statement.referencesList elseBranch
  | .conditional condition thenBranch none =>
    condition.references ++ Statement.referencesList thenBranch
  | .guarded body catches (some finallyBlock) =>
    Statement.referencesList body ++ CatchClause.referencesList catches ++
      Statement.referencesList finallyBlock
  | .guarded body catches none =>
    Statement.referencesList body ++ CatchClause.referencesList catches
  | .returning (some value) => value.references
  | .returning none => []

/-- The classes that a block names. -/
@[grind =] def Statement.referencesList : List Statement → List String
  | [] => []
  | statement :: rest => statement.references ++ Statement.referencesList rest

/-- The classes that handlers name. -/
@[grind =] def CatchClause.referencesList : List CatchClause → List String
  | [] => []
  | .handler _ type body :: rest =>
    type.references ++ Statement.referencesList body ++ CatchClause.referencesList rest

end

/-- The classes that a field declaration names. -/
def FieldDecl.references (field : FieldDecl) : List String :=
  field.type.references ++ (field.initializer.map (·.references)).getD []

/-- The classes that a method names. -/
def MethodDecl.references (method : MethodDecl) : List String :=
  (method.returnType.map (·.references)).getD [] ++
    method.parameters.flatMap (·.type.references) ++ Statement.referencesList method.body

/-- The classes that the header of a class names. -/
def ClassHeader.references (header : ClassHeader) : List String :=
  header.annotations ++ (header.supertype.map (·.fqn)).toList

namespace ClassDecl

mutual

/-- The classes that a class declaration names. -/
def references : ClassDecl → List String
  | .decl header fields methods nested =>
    header.references ++ fields.flatMap (·.references) ++ methods.flatMap (·.references) ++
      referencesList nested

/-- The classes that a list of class declarations names. -/
def referencesList : List ClassDecl → List String
  | [] => []
  | first :: rest => first.references ++ referencesList rest

end

end ClassDecl

/-- A class that needs no import in a file of the given package. -/
def isImplicitlyImported (package : Option String) (fqn : String) : Bool :=
  qualifier fqn == "java.lang" || some (qualifier fqn) == package

namespace CompilationUnit

/-- The classes that the unit names in its source text. -/
def references (unit : CompilationUnit) : List String := ClassDecl.referencesList unit.classes

/-- The classes that the unit names, in alphabetical order and each once. -/
def referencedTypes (unit : CompilationUnit) : List String :=
  unit.references.eraseDups.mergeSort fun first second => decide (first ≤ second)

/-- The unit imports the class. -/
def hasImport (unit : CompilationUnit) (fqn : String) : Bool :=
  unit.imports.any fun entry => !entry.isStatic && entry.typeName == fqn

/-- The unit has to be given an import before it can name the class. -/
def lacksImport (unit : CompilationUnit) (fqn : String) : Bool :=
  !isImplicitlyImported unit.package fqn && !unit.hasImport fqn

/-- Import a class, unless it is imported already or needs no import. -/
def addImport (unit : CompilationUnit) (fqn : String) : CompilationUnit :=
  if unit.lacksImport fqn then { unit with imports := unit.imports ++ [{ typeName := fqn }] }
  else unit

/-- The unit imports the class and does not name it. -/
def hasUnusedImport (unit : CompilationUnit) (fqn : String) : Bool :=
  unit.hasImport fqn && !unit.references.contains fqn

/-- Drop the import of a class that the unit does not name any more. -/
def dropImport (unit : CompilationUnit) (fqn : String) : CompilationUnit :=
  if unit.hasUnusedImport fqn then
    { unit with imports := unit.imports.filter fun entry => entry.isStatic || entry.typeName != fqn }
  else unit

end CompilationUnit

end LogCalls
