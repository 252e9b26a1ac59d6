import LogCalls.Tree.Unit

/-! # Source text

Trees written out as source text. An expression is one text; statements, classes and units are
sequences of lines, each line indented by its depth. A class name is written by its last component,
as for an imported class. -/

namespace LogCalls

/-- Texts with a separator between them. -/
def joinWith (separator : String) (texts : List String) : String := separator.intercalate texts

/-- Lines put together into text, each with its line end. -/
def textOfLines (lines : List String) : String := String.join (lines.map (· ++ "\n"))

/-- A line at a depth of indentation, four spaces for each level. -/
def indented (depth : Nat) (text : String) : String :=
  String.ofList (List.replicate (4 * depth) ' ') ++ text

/-- A literal as written in source. -/
def Literal.source : Literal → String
  | string raw => "\"" ++ raw ++ "\""
  | char raw => "'" ++ raw ++ "'"
  | number raw => raw
  | boolean true => "true"
  | boolean false => "false"
  | null => "null"

/-- The head of an anonymous function: a single parameter needs no parentheses. -/
def lambdaHead : List String → String
  | [parameter] => parameter
  | parameters => "(" ++ joinWith ", " parameters ++ ")"

mutual

/-- An expression as written in source. -/
def Expr.source : Expr → String
  | .literal value => value.source
  | .identifier name _ => name
  | .typeRef fqn => simpleName fqn
  | .fieldAccess target name _ => target.source ++ "." ++ name
  | .methodCall (some select) name arguments _ =>
    select.source ++ "." ++ name ++ "(" ++ joinWith ", " (Expr.sources arguments) ++ ")"
  | .methodCall none name arguments _ =>
    name ++ "(" ++ joinWith ", " (Expr.sources arguments) ++ ")"
  | .binary operator left right _ =>
    left.source ++ " " ++ operator.symbol ++ " " ++ right.source
  | .newClass type arguments =>
    "new " ++ type.sourceName ++ "(" ++ joinWith ", " (Expr.sources arguments) ++ ")"
  | .newArray element elements =>
    "new " ++ element.sourceName ++ "[]\x7b" ++ joinWith ", " (Expr.sources elements) ++ "\x7d"
  | .classLiteral fqn => simpleName fqn ++ ".class"
  | .lambda parameters body =>
    lambdaHead parameters ++ " -> \x7b " ++ joinWith " " (Statement.inlineSources body) ++ " \x7d"
  | .parens inner => "(" ++ inner.source ++ ")"

/-- The texts of a list of expressions. -/
def Expr.sources : List Expr → List String
  | [] => []
  | expr :: rest => expr.source :: Expr.sources rest

/-- A statement as lines at the given depth. -/
def Statement.lines (depth : Nat) : Statement → List String
  | .expression value => [indented depth (value.source ++ ";")]
  | .declaration name type (some initial) =>
    [indented depth (type.sourceName ++ " " ++ name ++ " = " ++ initial.source ++ ";")]
  | .declaration name type none => [indented depth (type.sourceName ++ " " ++ name ++ ";")]
  | .block body =>
    indented depth "\x7b" :: Statement.blockLines (depth + 1) body ++ [indented depth "\x7d"]
  | .conditional condition thenBranch (some elseBranch) =>
    indented depth ("if (" ++ condition.source ++ ") \x7b") ::
      Statement.blockLines (depth + 1) thenBranch ++
      indented depth "\x7d else \x7b" ::
      Statement.blockLines (depth + 1) elseBranch ++ [indented depth "\x7d"]
  | .conditional condition thenBranch none =>
    indented depth ("if (" ++ condition.source ++ ") \x7b") ::
      Statement.blockLines (depth + 1) thenBranch ++ [indented depth "\x7d"]
  | .guarded body catches (some finallyBlock) =>
    indented depth "try \x7b" :: Statement.blockLines (depth + 1) body ++
      CatchClause.lines depth catches ++
      indented depth "\x7d finally \x7b" ::
      Statement.blockLines (depth + 1) finallyBlock ++ [indented depth "\x7d"]
  | .guarded body catches none =>
    indented depth "try \x7b" :: Statement.blockLines (depth + 1) body ++
      CatchClause.lines depth catches ++ [indented depth "\x7d"]
  | .returning (some value) => [indented depth ("return " ++ value.source ++ ";")]
  | .returning none => [indented depth "return;"]

/-- The lines of the statements of a block. -/
def Statement.blockLines (depth : Nat) : List Statement → List String
  | [] => []
  | statement :: rest => statement.lines depth ++ Statement.blockLines depth rest

/-- The statements of a block, each as a text without its last line end. -/
def Statement.inlineSources : List Statement → List String
  | [] => []
  | statement :: rest =>
    joinWith "\n" (statement.lines 0) :: Statement.inlineSources rest

/-- The lines of handlers, each starting with the brace that closes what comes before it. -/
def CatchClause.lines (depth : Nat) : List CatchClause → List String
  | [] => []
  | .handler parameter type body :: rest =>
    indented depth ("\x7d catch (" ++ type.sourceName ++ " " ++ parameter ++ ") \x7b") ::
      Statement.blockLines (depth + 1) body ++ CatchClause.lines depth rest

end

/-- A statement as text without indentation and without its last line end. -/
def Statement.source (statement : Statement) : String := joinWith "\n" (statement.lines 0)

/-- The modifiers, each followed by a space. -/
def Modifiers.source (modifiers : Modifiers) : String :=
  String.join ((modifiers.visibility.keyword?.toList ++
    (if modifiers.isStatic then ["static"] else []) ++
    (if modifiers.isFinal then ["final"] else [])).map (· ++ " "))

/-- A field declaration as text. -/
def FieldDecl.source (field : FieldDecl) : String :=
  let head := field.modifiers.source ++ field.type.sourceName ++ " " ++ field.name
  match field.initializer with
  | some initial => head ++ " = " ++ initial.source ++ ";"
  | none => head ++ ";"

namespace MethodDecl

/-- The line that opens a method. -/
def opening (method : MethodDecl) : String :=
  let parameters := method.parameters.map fun parameter =>
    parameter.type.sourceName ++ " " ++ parameter.name
  let result := (method.returnType.map (·.sourceName)).getD "void"
  method.modifiers.source ++ result ++ " " ++ method.name ++ "(" ++ joinWith ", " parameters ++
    ") \x7b"

/-- A method as lines at the given depth. -/
def lines (depth : Nat) (method : MethodDecl) : List String :=
  indented depth method.opening :: Statement.blockLines (depth + 1) method.body ++
    [indented depth "\x7d"]

end MethodDecl

namespace ClassHeader

/-- The words that say what kind of class it is. -/
def keyword (header : ClassHeader) : String :=
  match header.kind, header.isAbstract with
  | .interfaceKind, _ => "interface"
  | .classKind, true => "abstract class"
  | .classKind, false => "class"

/-- The line that opens a class. The root class is not named as a superclass. -/
def opening (header : ClassHeader) : String :=
  let extension := match header.supertype with
    | some supertype =>
      if supertype.fqn = ClassName.object then "" else " extends " ++ simpleName supertype.fqn
    | none => ""
  header.keyword ++ " " ++ header.name ++ extension ++ " \x7b"

end ClassHeader

/-- Groups of lines with an empty line between them; one more empty line stands in front unless the
groups come first. -/
def separatedGroups (comesFirst : Bool) (groups : List (List String)) : List String :=
  match groups with
  | [] => []
  | group :: rest =>
    (if comesFirst then [] else [""]) ++ group ++ (rest.map ("" :: ·)).flatten

namespace ClassDecl

mutual

/-- A class as lines at the given depth: fields together, then methods and nested classes, each set
off by an empty line. -/
def lines (depth : Nat) : ClassDecl → List String
  | .decl header fields methods nested =>
    header.annotations.map (fun name => indented depth ("@" ++ simpleName name)) ++
      indented depth header.opening ::
      fields.map (fun field => indented (depth + 1) field.source) ++
      separatedGroups fields.isEmpty
        (methods.map (MethodDecl.lines (depth + 1)) ++ nestedLines (depth + 1) nested) ++
      [indented depth "\x7d"]

/-- The lines of each nested class. -/
def nestedLines (depth : Nat) : List ClassDecl → List (List String)
  | [] => []
  | first :: rest => first.lines depth :: nestedLines depth rest

end

/-- A class as text. -/
def source (declared : ClassDecl) : String := textOfLines (declared.lines 0)

end ClassDecl

/-- An import as a line of text. -/
def Import.source (entry : Import) : String :=
  if entry.isStatic then "import static " ++ entry.typeName ++ ";"
  else "import " ++ entry.typeName ++ ";"

namespace CompilationUnit

/-- A file as lines: package, imports and classes, with empty lines between them. -/
def lines (unit : CompilationUnit) : List String :=
  (match unit.package with
    | some package => ["package " ++ package ++ ";", ""]
    | none => []) ++
  (if unit.imports.isEmpty then [] else unit.imports.map Import.source ++ [""]) ++
  separatedGroups true (unit.classes.map (ClassDecl.lines 0))

/-- A file as text. -/
def source (unit : CompilationUnit) : String := textOfLines unit.lines

end CompilationUnit

end LogCalls
