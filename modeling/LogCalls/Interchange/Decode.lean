import LogCalls.Interchange.Names

/-! # Trees from JSON

Every kind of tree read from a document. Fields that may be absent have their defaults.

Types, expressions, statements and classes contain each other, so their decoders are given a bound
on how often they may call one another. Each call goes down at least one level of the document, so
the number of levels that are left is bound enough. -/

namespace LogCalls.Interchange

open Decoder

/-- A field as seen through a class type. -/
def decodeMemberField : Decoder MemberField :=
  record ["name", "type_name", "visibility", "is_static"] fun fields => do
    return {
      name := ← fields.required "name" text
      typeName := ← fields.required "type_name" text
      visibility := ← fields.withDefault "visibility" .packageAccess (choice visibilities)
      isStatic := ← fields.flag "is_static" }

/-- A class with its ancestors, each inside the one before it. -/
def decodeClassTypeWithin : (bound : Nat) → Decoder ClassType
  | 0 => fun _ _ => none
  | bound + 1 => record ["fqn", "supertype", "fields"] fun fields => do
      let fqn ← fields.required "fqn" text
      let supertype ← fields.optional "supertype" (decodeClassTypeWithin bound)
      let declared ← fields.list "fields" decodeMemberField
      return {
        fqn, fields := declared
        ancestors := (supertype.map ClassType.ancestry).getD [] }

/-- A class type. -/
def decodeClassType : Decoder ClassType := fun levels => decodeClassTypeWithin levels levels

/-- A type, within a bound. -/
def decodeTypeWithin : (bound : Nat) → Decoder JavaType
  | 0 => fun _ _ => none
  | bound + 1 => variant [] [
      ("Primitive", fun levels json => (choice primitives levels json).map .primitive),
      ("Class", fun levels json => (decodeClassType levels json).map .classType),
      ("Array", fun levels json => (decodeTypeWithin bound levels json).map .array)]

/-- A type. -/
def decodeType : Decoder JavaType := fun levels => decodeTypeWithin levels levels

/-- A resolved method. -/
def decodeMethod : Decoder ResolvedMethod :=
  record ["declaring_type", "name", "return_type", "is_static"] fun fields => do
    return {
      declaringType := ← fields.required "declaring_type" text
      name := ← fields.required "name" text
      returnType := ← fields.optional "return_type" decodeType
      isStatic := ← fields.flag "is_static" }

/-- A literal. -/
def decodeLiteral : Decoder Literal :=
  variant [("Null", .null)] [
    ("String", fun levels json => (text levels json).map .string),
    ("Char", fun levels json => (text levels json).map .char),
    ("Number", fun levels json => (text levels json).map .number),
    ("Boolean", fun levels json => (boolean levels json).map .boolean)]

/-- A handler, given the decoder of its statements. -/
def decodeCatch (statement : Decoder Statement) : Decoder CatchClause :=
  record ["param", "ty", "body"] fun fields => do
    let parameter ← fields.required "param" text
    let type ← fields.required "ty" decodeType
    let body ← fields.required "body" (list statement)
    return .handler parameter type body

mutual

/-- An expression, within a bound. -/
def decodeExprWithin : (bound : Nat) → Decoder Expr
  | 0 => fun _ _ => none
  | bound + 1 => variant [] [
      ("Literal", fun levels json => (decodeLiteral levels json).map .literal),
      ("Identifier", record ["name", "ty"] fun fields => do
        let name ← fields.required "name" text
        let type ← fields.optional "ty" decodeType
        return .identifier name type),
      ("TypeRef", record ["fqn"] fun fields => do
        return .typeRef (← fields.required "fqn" text)),
      ("FieldAccess", record ["target", "name", "ty"] fun fields => do
        let target ← fields.required "target" (decodeExprWithin bound)
        let name ← fields.required "name" text
        let type ← fields.optional "ty" decodeType
        return .fieldAccess target name type),
      ("MethodCall", record ["select", "name", "args", "method_type"] fun fields => do
        let select ← fields.optional "select" (decodeExprWithin bound)
        let name ← fields.required "name" text
        let arguments ← fields.list "args" (decodeExprWithin bound)
        let method ← fields.optional "method_type" decodeMethod
        return .methodCall select name arguments method),
      ("Binary", record ["op", "left", "right", "ty"] fun fields => do
        let operator ← fields.required "op" (choice operators)
        let left ← fields.required "left" (decodeExprWithin bound)
        let right ← fields.required "right" (decodeExprWithin bound)
        let type ← fields.optional "ty" decodeType
        return .binary operator left right type),
      ("NewClass", record ["ty", "args"] fun fields => do
        let type ← fields.required "ty" decodeType
        let arguments ← fields.list "args" (decodeExprWithin bound)
        return .newClass type arguments),
      ("NewArray", record ["element", "elements"] fun fields => do
        let element ← fields.required "element" decodeType
        let elements ← fields.list "elements" (decodeExprWithin bound)
        return .newArray element elements),
      ("ClassLiteral", record ["fqn"] fun fields => do
        return .classLiteral (← fields.required "fqn" text)),
      ("Lambda", record ["params", "body"] fun fields => do
        let parameters ← fields.required "params" (list text)
        let body ← fields.required "body" (list (decodeStatementWithin bound))
        return .lambda parameters body),
      ("Parens", fun levels json => (decodeExprWithin bound levels json).map .parens)]

/-- A statement, within a bound. -/
def decodeStatementWithin : (bound : Nat) → Decoder Statement
  | 0 => fun _ _ => none
  | bound + 1 => variant [] [
      ("Expr", fun levels json => (decodeExprWithin bound levels json).map .expression),
      ("Local", record ["name", "ty", "init"] fun fields => do
        let name ← fields.required "name" text
        let type ← fields.required "ty" decodeType
        let initial ← fields.optional "init" (decodeExprWithin bound)
        return .declaration name type initial),
      ("Block", fun levels json =>
        (list (decodeStatementWithin bound) levels json).map .block),
      ("If", record ["condition", "then_branch", "else_branch"] fun fields => do
        let condition ← fields.required "condition" (decodeExprWithin bound)
        let thenBranch ← fields.required "then_branch" (list (decodeStatementWithin bound))
        let elseBranch ← fields.optional "else_branch" (list (decodeStatementWithin bound))
        return .conditional condition thenBranch elseBranch),
      ("Try", record ["body", "catches", "finally"] fun fields => do
        let body ← fields.required "body" (list (decodeStatementWithin bound))
        let catches ← fields.list "catches" (decodeCatch (decodeStatementWithin bound))
        let finallyBlock ← fields.optional "finally" (list (decodeStatementWithin bound))
        return .guarded body catches finallyBlock),
      ("Return", fun levels json =>
        (optional (decodeExprWithin bound) levels json).map .returning)]

end

/-- An expression. -/
def decodeExpr : Decoder Expr := fun levels => decodeExprWithin levels levels

/-- A statement. -/
def decodeStatement : Decoder Statement := fun levels => decodeStatementWithin levels levels

/-- Modifiers. -/
def decodeModifiers : Decoder Modifiers :=
  record ["visibility", "is_static", "is_final"] fun fields => do
    return {
      visibility := ← fields.withDefault "visibility" .packageAccess (choice visibilities)
      isStatic := ← fields.flag "is_static"
      isFinal := ← fields.flag "is_final" }

/-- A field declaration. -/
def decodeField : Decoder FieldDecl :=
  record ["name", "ty", "modifiers", "initializer"] fun fields => do
    return {
      name := ← fields.required "name" text
      type := ← fields.required "ty" decodeType
      modifiers := ← fields.withDefault "modifiers" {} decodeModifiers
      initializer := ← fields.optional "initializer" decodeExpr }

/-- A parameter. -/
def decodeParameter : Decoder Parameter :=
  record ["name", "ty"] fun fields => do
    return { name := ← fields.required "name" text, type := ← fields.required "ty" decodeType }

/-- A method. -/
def decodeMethodDecl : Decoder MethodDecl :=
  record ["name", "modifiers", "return_type", "params", "body"] fun fields => do
    return {
      name := ← fields.required "name" text
      modifiers := ← fields.withDefault "modifiers" {} decodeModifiers
      returnType := ← fields.optional "return_type" decodeType
      parameters := ← fields.list "params" decodeParameter
      body := ← fields.list "body" decodeStatement }

/-- A class, within a bound. -/
def decodeClassWithin : (bound : Nat) → Decoder ClassDecl
  | 0 => fun _ _ => none
  | bound + 1 =>
    record ["name", "fqn", "kind", "is_abstract", "annotations", "supertype", "fields", "methods",
      "nested"] fun fields => do
    let header : ClassHeader := {
      name := ← fields.required "name" text
      fqn := ← fields.required "fqn" text
      kind := ← fields.withDefault "kind" .classKind (choice classKinds)
      isAbstract := ← fields.flag "is_abstract"
      annotations := ← fields.list "annotations" text
      supertype := ← fields.optional "supertype" decodeClassType }
    let declared ← fields.list "fields" decodeField
    let methods ← fields.list "methods" decodeMethodDecl
    let nested ← fields.list "nested" (decodeClassWithin bound)
    return .decl header declared methods nested

/-- A class. -/
def decodeClass : Decoder ClassDecl := fun levels => decodeClassWithin levels levels

/-- An import. -/
def decodeImport : Decoder Import :=
  record ["type_name", "is_static"] fun fields => do
    return { typeName := ← fields.required "type_name" text, isStatic := ← fields.flag "is_static" }

/-- A unit. -/
def decodeUnit : Decoder CompilationUnit :=
  record ["source_path", "package", "imports", "classes"] fun fields => do
    return {
      sourcePath := ← fields.optional "source_path" text
      package := ← fields.optional "package" text
      imports := ← fields.list "imports" decodeImport
      classes := ← fields.list "classes" decodeClass }

end LogCalls.Interchange
