import LogCalls.Interchange.Names

/-! # Trees as JSON

Every tree as a document. All fields are written, with null for what is absent. -/

namespace LogCalls.Interchange

/-- An optional value, or null. -/
def encodeOption {α : Type} (encode : α → Json) : Option α → Json
  | some value => encode value
  | none => .null

/-- A list of strings. -/
def encodeTexts (texts : List String) : Json := .array (texts.map .string)

/-- An alternative with its content. -/
def tagged (name : String) (content : Json) : Json := .object [(name, content)]

/-- A field as seen through a class type. -/
def encodeMemberField (field : MemberField) : Json :=
  .object [
    ("name", .string field.name),
    ("type_name", .string field.typeName),
    ("visibility", wordFor visibilities field.visibility),
    ("is_static", .boolean field.isStatic)]

/-- A class with its ancestors, each inside the one before it. -/
def encodeEntry (entry : ClassEntry) : List ClassEntry → Json
  | [] => .object [
      ("fqn", .string entry.fqn),
      ("supertype", .null),
      ("fields", .array (entry.fields.map encodeMemberField))]
  | parent :: rest => .object [
      ("fqn", .string entry.fqn),
      ("supertype", encodeEntry parent rest),
      ("fields", .array (entry.fields.map encodeMemberField))]

/-- A class type. -/
def encodeClassType (type : ClassType) : Json := encodeEntry type.toClassEntry type.ancestors

/-- A type. -/
def encodeType : JavaType → Json
  | .primitive kind => tagged "Primitive" (wordFor primitives kind)
  | .classType type => tagged "Class" (encodeClassType type)
  | .array element => tagged "Array" (encodeType element)

/-- A resolved method. -/
def encodeMethod (method : ResolvedMethod) : Json :=
  .object [
    ("declaring_type", .string method.declaringType),
    ("name", .string method.name),
    ("return_type", encodeOption encodeType method.returnType),
    ("is_static", .boolean method.isStatic)]

/-- A literal. -/
def encodeLiteral : Literal → Json
  | .string raw => tagged "String" (.string raw)
  | .char raw => tagged "Char" (.string raw)
  | .number raw => tagged "Number" (.string raw)
  | .boolean value => tagged "Boolean" (.boolean value)
  | .null => .string "Null"

mutual

/-- An expression. -/
def encodeExpr : Expr → Json
  | .literal value => tagged "Literal" (encodeLiteral value)
  | .identifier name type => tagged "Identifier" (.object [
      ("name", .string name), ("ty", encodeOption encodeType type)])
  | .typeRef fqn => tagged "TypeRef" (.object [("fqn", .string fqn)])
  | .fieldAccess target name type => tagged "FieldAccess" (.object [
      ("target", encodeExpr target), ("name", .string name), ("ty", encodeOption encodeType type)])
  | .methodCall (some select) name arguments method => tagged "MethodCall" (.object [
      ("select", encodeExpr select), ("name", .string name),
      ("args", .array (encodeExprs arguments)),
      ("method_type", encodeOption encodeMethod method)])
  | .methodCall none name arguments method => tagged "MethodCall" (.object [
      ("select", .null), ("name", .string name), ("args", .array (encodeExprs arguments)),
      ("method_type", encodeOption encodeMethod method)])
  | .binary operator left right type => tagged "Binary" (.object [
      ("op", wordFor operators operator), ("left", encodeExpr left), ("right", encodeExpr right),
      ("ty", encodeOption encodeType type)])
  | .newClass type arguments => tagged "NewClass" (.object [
      ("ty", encodeType type), ("args", .array (encodeExprs arguments))])
  | .newArray element elements => tagged "NewArray" (.object [
      ("element", encodeType element), ("elements", .array (encodeExprs elements))])
  | .classLiteral fqn => tagged "ClassLiteral" (.object [("fqn", .string fqn)])
  | .lambda parameters body => tagged "Lambda" (.object [
      ("params", encodeTexts parameters), ("body", .array (encodeStatements body))])
  | .parens inner => tagged "Parens" (encodeExpr inner)

/-- A list of expressions. -/
def encodeExprs : List Expr → List Json
  | [] => []
  | expr :: rest => encodeExpr expr :: encodeExprs rest

/-- A statement. -/
def encodeStatement : Statement → Json
  | .expression value => tagged "Expr" (encodeExpr value)
  | .declaration name type (some initial) => tagged "Local" (.object [
      ("name", .string name), ("ty", encodeType type), ("init", encodeExpr initial)])
  | .declaration name type none => tagged "Local" (.object [
      ("name", .string name), ("ty", encodeType type), ("init", .null)])
  | .block body => tagged "Block" (.array (encodeStatements body))
  | .conditional condition thenBranch (some elseBranch) => tagged "If" (.object [
      ("condition", encodeExpr condition), ("then_branch", .array (encodeStatements thenBranch)),
      ("else_branch", .array (encodeStatements elseBranch))])
  | .conditional condition thenBranch none => tagged "If" (.object [
      ("condition", encodeExpr condition), ("then_branch", .array (encodeStatements thenBranch)),
      ("else_branch", .null)])
  | .guarded body catches (some finallyBlock) => tagged "Try" (.object [
      ("body", .array (encodeStatements body)), ("catches", .array (encodeCatches catches)),
      ("finally", .array (encodeStatements finallyBlock))])
  | .guarded body catches none => tagged "Try" (.object [
      ("body", .array (encodeStatements body)), ("catches", .array (encodeCatches catches)),
      ("finally", .null)])
  | .returning (some value) => tagged "Return" (encodeExpr value)
  | .returning none => tagged "Return" .null

/-- A list of statements. -/
def encodeStatements : List Statement → List Json
  | [] => []
  | statement :: rest => encodeStatement statement :: encodeStatements rest

/-- A list of handlers. -/
def encodeCatches : List CatchClause → List Json
  | [] => []
  | .handler parameter type body :: rest =>
    .object [
      ("param", .string parameter), ("ty", encodeType type),
      ("body", .array (encodeStatements body))] :: encodeCatches rest

end

/-- Modifiers. -/
def encodeModifiers (modifiers : Modifiers) : Json :=
  .object [
    ("visibility", wordFor visibilities modifiers.visibility),
    ("is_static", .boolean modifiers.isStatic),
    ("is_final", .boolean modifiers.isFinal)]

/-- A field declaration. -/
def encodeField (field : FieldDecl) : Json :=
  .object [
    ("name", .string field.name),
    ("ty", encodeType field.type),
    ("modifiers", encodeModifiers field.modifiers),
    ("initializer", encodeOption encodeExpr field.initializer)]

/-- A parameter. -/
def encodeParameter (parameter : Parameter) : Json :=
  .object [("name", .string parameter.name), ("ty", encodeType parameter.type)]

/-- A method. -/
def encodeMethodDecl (method : MethodDecl) : Json :=
  .object [
    ("name", .string method.name),
    ("modifiers", encodeModifiers method.modifiers),
    ("return_type", encodeOption encodeType method.returnType),
    ("params", .array (method.parameters.map encodeParameter)),
    ("body", .array (encodeStatements method.body))]

mutual

/-- A class. -/
def encodeClass : ClassDecl → Json
  | .decl header fields methods nested => .object [
      ("name", .string header.name),
      ("fqn", .string header.fqn),
      ("kind", wordFor classKinds header.kind),
      ("is_abstract", .boolean header.isAbstract),
      ("annotations", encodeTexts header.annotations),
      ("supertype", encodeOption encodeClassType header.supertype),
      ("fields", .array (fields.map encodeField)),
      ("methods", .array (methods.map encodeMethodDecl)),
      ("nested", .array (encodeClasses nested))]

/-- A list of classes. -/
def encodeClasses : List ClassDecl → List Json
  | [] => []
  | first :: rest => encodeClass first :: encodeClasses rest

end

/-- An import. -/
def encodeImport (entry : Import) : Json :=
  .object [("type_name", .string entry.typeName), ("is_static", .boolean entry.isStatic)]

/-- A unit. -/
def encodeUnit (unit : CompilationUnit) : Json :=
  .object [
    ("source_path", encodeOption .string unit.sourcePath),
    ("package", encodeOption .string unit.package),
    ("imports", .array (unit.imports.map encodeImport)),
    ("classes", .array (encodeClasses unit.classes))]

end LogCalls.Interchange
