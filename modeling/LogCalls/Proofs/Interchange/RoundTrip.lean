import LogCalls.CommandLine.UnitFile
import LogCalls.Proofs.Interchange.Decoders
import LogCalls.Proofs.Json.RoundTrip

/-! # Documents are read back

Every tree is read back from the document that is written for it, as long as the document is not
nested deeper than documents may be. For each kind of tree there is one lemma, which follows the fields
of the decoder. -/

namespace LogCalls

namespace Interchange

open Decoder

variable {bound : Nat}

/-! ## Alternatives without content -/

/-- Primitive kinds are read back. -/
theorem reads_primitive (kind : Primitive) :
    Reads (choice primitives) bound (wordFor primitives kind) kind := by
  cases kind <;> exact reads_choice rfl

/-- Visibilities are read back. -/
theorem reads_visibility (visibility : Visibility) :
    Reads (choice visibilities) bound (wordFor visibilities visibility) visibility := by
  cases visibility <;> exact reads_choice rfl

/-- Operators are read back. -/
theorem reads_operator (operator : BinaryOperator) :
    Reads (choice operators) bound (wordFor operators operator) operator := by
  cases operator <;> exact reads_choice rfl

/-- Kinds of class are read back. -/
theorem reads_classKind (kind : ClassKind) :
    Reads (choice classKinds) bound (wordFor classKinds kind) kind := by
  cases kind <;> exact reads_choice rfl

/-- Lists of texts are read back. -/
theorem reads_texts (texts : List String) : Reads (list text) bound (encodeTexts texts) texts :=
  Reads.list_map fun content _ => reads_text content

/-! ## Types -/

/-- Member fields are read back. -/
theorem reads_memberField (field : MemberField) :
    Reads decodeMemberField bound (encodeMemberField field) field := by
  refine Reads.weaken (.record rfl rfl fun levels fit => ?_)
  simp [fit.required "name" rfl (reads_text field.name),
    fit.required "type_name" rfl (reads_text field.typeName),
    fit.withDefault "visibility" _ rfl (reads_visibility field.visibility),
    fit.flag "is_static" rfl]

/-- A class is read if what stands for its superclass is read as the superclass. -/
theorem reads_entry_succ {supertype : Option ClassType} {json : Json}
    (reads : Reads (optional (decodeClassTypeWithin bound)) bound json supertype)
    (entry : ClassEntry) :
    Reads (decodeClassTypeWithin (bound + 1)) (bound + 1)
      (.object [("fqn", .string entry.fqn), ("supertype", json),
        ("fields", .array (entry.fields.map encodeMemberField))])
      { toClassEntry := entry, ancestors := (supertype.map ClassType.ancestry).getD [] } := by
  refine Reads.record rfl rfl fun levels fit => ?_
  simp [fit.required "fqn" rfl (reads_text entry.fqn), fit.optional "supertype" rfl reads,
    fit.list "fields" rfl (Reads.list_map fun field _ => reads_memberField field)]

/-- No class entry is written as `null`. -/
theorem encodeEntry_ne_null (entry : ClassEntry) (ancestors : List ClassEntry) :
    encodeEntry entry ancestors ≠ .null := by
  cases ancestors <;> nofun

/-- A class is read with its ancestors, each of which is one call further in. -/
theorem reads_entry (ancestors : List ClassEntry) :
    ∀ (entry : ClassEntry) (bound : Nat), Reads (decodeClassTypeWithin bound) bound
      (encodeEntry entry ancestors) { toClassEntry := entry, ancestors } := by
  induction ancestors with
  | nil =>
    intro entry bound
    cases bound with
    | zero => exact reads_zero _ (Nat.succ_pos _)
    | succ bound => exact reads_entry_succ (reads_optional_null _) entry
  | cons parent ancestors ih =>
    intro entry bound
    cases bound with
    | zero => exact reads_zero _ (Nat.succ_pos _)
    | succ bound =>
      have reads := (ih parent bound).optional_some (encodeEntry_ne_null _ _)
      exact reads_entry_succ reads entry

/-- Class types are read back. -/
theorem reads_classType (type : ClassType) :
    Reads decodeClassType bound (encodeClassType type) type :=
  Reads.ofWithin decodeClassTypeWithin (reads_entry type.ancestors type.toClassEntry)

/-- Types are read back at any bound. -/
theorem reads_typeWithin (type : JavaType) :
    ∀ bound, Reads (decodeTypeWithin bound) bound (encodeType type) type := by
  induction type with
  | primitive kind =>
    intro bound
    cases bound with
    | zero => exact reads_zero _ (Nat.succ_pos _)
    | succ bound => exact .tagged rfl ((reads_primitive kind).map _)
  | classType type =>
    intro bound
    cases bound with
    | zero => exact reads_zero _ (Nat.succ_pos _)
    | succ bound => exact .tagged rfl ((reads_classType type).map _)
  | array element ih =>
    intro bound
    cases bound with
    | zero => exact reads_zero _ (Nat.succ_pos _)
    | succ bound => exact .tagged rfl ((ih bound).map _)

/-- Types are read back. -/
theorem reads_type (type : JavaType) : Reads decodeType bound (encodeType type) type :=
  Reads.ofWithin decodeTypeWithin (reads_typeWithin type)

/-- So is a type that may be missing. -/
theorem reads_optionalType (type : Option JavaType) :
    Reads (optional decodeType) bound (encodeOption encodeType type) type :=
  Reads.option (fun type _ => reads_type type) fun type => by cases type <;> nofun

/-- Method signatures are read back. -/
theorem reads_method (method : ResolvedMethod) :
    Reads decodeMethod bound (encodeMethod method) method := by
  refine Reads.weaken (.record rfl rfl fun levels fit => ?_)
  simp [fit.required "declaring_type" rfl (reads_text method.declaringType),
    fit.required "name" rfl (reads_text method.name),
    fit.optional "return_type" rfl (reads_optionalType method.returnType), fit.flag "is_static" rfl]

/-- So is a signature that may be missing. -/
theorem reads_optionalMethod (method : Option ResolvedMethod) :
    Reads (optional decodeMethod) bound (encodeOption encodeMethod method) method :=
  Reads.option (fun method _ => reads_method method) fun _ => nofun

/-- Literals are read back. -/
theorem reads_literal (value : Literal) : Reads decodeLiteral bound (encodeLiteral value) value := by
  apply Reads.weaken
  cases value with
  | string raw => exact .tagged rfl ((reads_text raw).map _)
  | char raw => exact .tagged rfl ((reads_text raw).map _)
  | number raw => exact .tagged rfl ((reads_text raw).map _)
  | boolean truth => exact .tagged rfl ((reads_boolean truth).map _)
  | null => exact fun _ _ _ => rfl

/-! ## Expressions and statements -/

/-- An expression is an object. -/
theorem nesting_encodeExpr_pos (expr : Expr) : 0 < (encodeExpr expr).nesting := by
  fun_cases encodeExpr expr <;> exact Nat.succ_pos _

/-- So is a statement. -/
theorem nesting_encodeStatement_pos (statement : Statement) :
    0 < (encodeStatement statement).nesting := by
  fun_cases encodeStatement statement <;> exact Nat.succ_pos _

/-- No expression is written as `null`. -/
theorem encodeExpr_ne_null (expr : Expr) : encodeExpr expr ≠ .null := by
  fun_cases encodeExpr expr <;> nofun

-- A decoder that is called inside of another has one call less left, and at least one level less.
mutual

/-- An expression is read from its encoding. -/
theorem reads_exprWithin :
    ∀ (expr : Expr) (bound : Nat), Reads (decodeExprWithin bound) bound (encodeExpr expr) expr
  | expr, 0 => reads_zero _ (nesting_encodeExpr_pos expr)
  | .literal value, bound + 1 => .tagged rfl ((reads_literal value).map _)
  | .identifier name type, bound + 1 => by
    refine .tagged rfl (Reads.weaken (.record rfl rfl fun levels fit => ?_))
    simp [fit.required "name" rfl (reads_text name),
      fit.optional "ty" rfl (reads_optionalType type)]
  | .typeRef fqn, bound + 1 => by
    refine .tagged rfl (Reads.weaken (.record rfl rfl fun levels fit => ?_))
    simp [fit.required "fqn" rfl (reads_text fqn)]
  | .fieldAccess target name type, bound + 1 => by
    refine .tagged rfl (Reads.weaken (.record rfl rfl fun levels fit => ?_))
    simp [fit.required "target" rfl (reads_exprWithin target bound),
      fit.required "name" rfl (reads_text name), fit.optional "ty" rfl (reads_optionalType type)]
  | .methodCall (some select) name arguments method, bound + 1 => by
    have receiver := (reads_exprWithin select bound).optional_some (encodeExpr_ne_null select)
    refine .tagged rfl (Reads.weaken (.record rfl rfl fun levels fit => ?_))
    simp [fit.optional "select" rfl receiver, fit.required "name" rfl (reads_text name),
      fit.list "args" rfl (reads_exprsWithin arguments bound),
      fit.optional "method_type" rfl (reads_optionalMethod method)]
  | .methodCall none name arguments method, bound + 1 => by
    have receiver : Reads (optional (decodeExprWithin bound)) bound .null none :=
      reads_optional_null _
    refine .tagged rfl (Reads.weaken (.record rfl rfl fun levels fit => ?_))
    simp [fit.optional "select" rfl receiver, fit.required "name" rfl (reads_text name),
      fit.list "args" rfl (reads_exprsWithin arguments bound),
      fit.optional "method_type" rfl (reads_optionalMethod method)]
  | .binary operator left right type, bound + 1 => by
    refine .tagged rfl (Reads.weaken (.record rfl rfl fun levels fit => ?_))
    simp [fit.required "op" rfl (reads_operator operator),
      fit.required "left" rfl (reads_exprWithin left bound),
      fit.required "right" rfl (reads_exprWithin right bound),
      fit.optional "ty" rfl (reads_optionalType type)]
  | .newClass type arguments, bound + 1 => by
    refine .tagged rfl (Reads.weaken (.record rfl rfl fun levels fit => ?_))
    simp [fit.required "ty" rfl (reads_type type),
      fit.list "args" rfl (reads_exprsWithin arguments bound)]
  | .newArray element elements, bound + 1 => by
    refine .tagged rfl (Reads.weaken (.record rfl rfl fun levels fit => ?_))
    simp [fit.required "element" rfl (reads_type element),
      fit.list "elements" rfl (reads_exprsWithin elements bound)]
  | .classLiteral fqn, bound + 1 => by
    refine .tagged rfl (Reads.weaken (.record rfl rfl fun levels fit => ?_))
    simp [fit.required "fqn" rfl (reads_text fqn)]
  | .lambda parameters body, bound + 1 => by
    refine .tagged rfl (Reads.weaken (.record rfl rfl fun levels fit => ?_))
    simp [fit.required "params" rfl (reads_texts parameters),
      fit.required "body" rfl (reads_statementsWithin body bound)]
  | .parens inner, bound + 1 => .tagged rfl ((reads_exprWithin inner bound).map _)

/-- Expressions are read from their encoding. -/
theorem reads_exprsWithin :
    ∀ (exprs : List Expr) (bound : Nat),
      Reads (list (decodeExprWithin bound)) bound (.array (encodeExprs exprs)) exprs
  | [], _ => .list_nil _
  | expr :: rest, bound => .list_cons (reads_exprWithin expr bound) (reads_exprsWithin rest bound)

/-- A statement is read from its encoding. -/
theorem reads_statementWithin :
    ∀ (statement : Statement) (bound : Nat),
      Reads (decodeStatementWithin bound) bound (encodeStatement statement) statement
  | statement, 0 => reads_zero _ (nesting_encodeStatement_pos statement)
  | .expression value, bound + 1 => .tagged rfl ((reads_exprWithin value bound).map _)
  | .declaration name type (some initial), bound + 1 => by
    have value := (reads_exprWithin initial bound).optional_some (encodeExpr_ne_null initial)
    refine .tagged rfl (Reads.weaken (.record rfl rfl fun levels fit => ?_))
    simp [fit.required "name" rfl (reads_text name), fit.required "ty" rfl (reads_type type),
      fit.optional "init" rfl value]
  | .declaration name type none, bound + 1 => by
    have value : Reads (optional (decodeExprWithin bound)) bound .null none :=
      reads_optional_null _
    refine .tagged rfl (Reads.weaken (.record rfl rfl fun levels fit => ?_))
    simp [fit.required "name" rfl (reads_text name), fit.required "ty" rfl (reads_type type),
      fit.optional "init" rfl value]
  | .block body, bound + 1 => .tagged rfl ((reads_statementsWithin body bound).map _)
  | .conditional condition thenBranch (some elseBranch), bound + 1 => by
    have other := (reads_statementsWithin elseBranch bound).optional_some nofun
    refine .tagged rfl (Reads.weaken (.record rfl rfl fun levels fit => ?_))
    simp [fit.required "condition" rfl (reads_exprWithin condition bound),
      fit.required "then_branch" rfl (reads_statementsWithin thenBranch bound),
      fit.optional "else_branch" rfl other]
  | .conditional condition thenBranch none, bound + 1 => by
    have other : Reads (optional (list (decodeStatementWithin bound))) bound .null none :=
      reads_optional_null _
    refine .tagged rfl (Reads.weaken (.record rfl rfl fun levels fit => ?_))
    simp [fit.required "condition" rfl (reads_exprWithin condition bound),
      fit.required "then_branch" rfl (reads_statementsWithin thenBranch bound),
      fit.optional "else_branch" rfl other]
  | .guarded body catches (some finallyBlock), bound + 1 => by
    have last := (reads_statementsWithin finallyBlock bound).optional_some nofun
    refine .tagged rfl (Reads.weaken (.record rfl rfl fun levels fit => ?_))
    simp [fit.required "body" rfl (reads_statementsWithin body bound),
      fit.list "catches" rfl (reads_catchesWithin catches bound), fit.optional "finally" rfl last]
  | .guarded body catches none, bound + 1 => by
    have last : Reads (optional (list (decodeStatementWithin bound))) bound .null none :=
      reads_optional_null _
    refine .tagged rfl (Reads.weaken (.record rfl rfl fun levels fit => ?_))
    simp [fit.required "body" rfl (reads_statementsWithin body bound),
      fit.list "catches" rfl (reads_catchesWithin catches bound), fit.optional "finally" rfl last]
  | .returning (some value), bound + 1 =>
    .tagged rfl (((reads_exprWithin value bound).optional_some (encodeExpr_ne_null value)).map _)
  | .returning none, bound + 1 => .tagged rfl ((reads_optional_null _).map _)

/-- Statements are read from their encoding. -/
theorem reads_statementsWithin :
    ∀ (statements : List Statement) (bound : Nat),
      Reads (list (decodeStatementWithin bound)) bound (.array (encodeStatements statements))
        statements
  | [], _ => .list_nil _
  | statement :: rest, bound =>
    .list_cons (reads_statementWithin statement bound) (reads_statementsWithin rest bound)

/-- Handlers are read from their encoding. -/
theorem reads_catchesWithin :
    ∀ (catches : List CatchClause) (bound : Nat),
      Reads (list (decodeCatch (decodeStatementWithin bound))) bound
        (.array (encodeCatches catches)) catches
  | [], _ => .list_nil _
  | .handler parameter type body :: rest, bound => by
    refine .list_cons (Reads.weaken (.record rfl rfl fun levels fit => ?_))
      (reads_catchesWithin rest bound)
    simp [fit.required "param" rfl (reads_text parameter), fit.required "ty" rfl (reads_type type),
      fit.required "body" rfl (reads_statementsWithin body bound)]

end

/-- Expressions are read back. -/
theorem reads_expr (expr : Expr) : Reads decodeExpr bound (encodeExpr expr) expr :=
  Reads.ofWithin decodeExprWithin (reads_exprWithin expr)

/-- Statements are read back. -/
theorem reads_statement (statement : Statement) :
    Reads decodeStatement bound (encodeStatement statement) statement :=
  Reads.ofWithin decodeStatementWithin (reads_statementWithin statement)

/-! ## Members, classes and units -/

/-- A block is written item by item. -/
theorem encodeStatements_eq_map (statements : List Statement) :
    encodeStatements statements = statements.map encodeStatement := by
  induction statements with
  | nil => rfl
  | cons statement rest ih => rw [encodeStatements, ih]; rfl

/-- Modifiers are read back. -/
theorem reads_modifiers (modifiers : Modifiers) :
    Reads decodeModifiers bound (encodeModifiers modifiers) modifiers := by
  refine Reads.weaken (.record rfl rfl fun levels fit => ?_)
  simp [fit.withDefault "visibility" _ rfl (reads_visibility modifiers.visibility),
    fit.flag "is_static" rfl, fit.flag "is_final" rfl]

/-- Fields are read back. -/
theorem reads_field (field : FieldDecl) : Reads decodeField bound (encodeField field) field := by
  have initial : Reads (optional decodeExpr) bound (encodeOption encodeExpr field.initializer)
      field.initializer := Reads.option (fun expr _ => reads_expr expr) encodeExpr_ne_null
  refine Reads.weaken (.record rfl rfl fun levels fit => ?_)
  simp [fit.required "name" rfl (reads_text field.name),
    fit.required "ty" rfl (reads_type field.type),
    fit.withDefault "modifiers" _ rfl (reads_modifiers field.modifiers),
    fit.optional "initializer" rfl initial]

/-- Parameters are read back. -/
theorem reads_parameter (parameter : Parameter) :
    Reads decodeParameter bound (encodeParameter parameter) parameter := by
  refine Reads.weaken (.record rfl rfl fun levels fit => ?_)
  simp [fit.required "name" rfl (reads_text parameter.name),
    fit.required "ty" rfl (reads_type parameter.type)]

/-- Methods are read back. -/
theorem reads_methodDecl (method : MethodDecl) :
    Reads decodeMethodDecl bound (encodeMethodDecl method) method := by
  have body : Reads (list decodeStatement) bound (.array (encodeStatements method.body))
      method.body := by
    rw [encodeStatements_eq_map]
    exact Reads.list_map fun statement _ => reads_statement statement
  refine Reads.weaken (.record rfl rfl fun levels fit => ?_)
  simp [fit.required "name" rfl (reads_text method.name),
    fit.withDefault "modifiers" _ rfl (reads_modifiers method.modifiers),
    fit.optional "return_type" rfl (reads_optionalType method.returnType),
    fit.list "params" rfl (Reads.list_map fun parameter _ => reads_parameter parameter),
    fit.list "body" rfl body]

mutual

/-- A class is read from its encoding. -/
theorem reads_classWithin :
    ∀ (declared : ClassDecl) (bound : Nat),
      Reads (decodeClassWithin bound) bound (encodeClass declared) declared
  | .decl _ _ _ _, 0 => reads_zero _ (Nat.succ_pos _)
  | .decl header fields methods nested, bound + 1 => by
    have supertype : Reads (optional decodeClassType) bound
        (encodeOption encodeClassType header.supertype) header.supertype :=
      Reads.option (fun type _ => reads_classType type) fun type => encodeEntry_ne_null _ _
    refine Reads.record rfl rfl fun levels fit => ?_
    simp [fit.required "name" rfl (reads_text header.name),
      fit.required "fqn" rfl (reads_text header.fqn),
      fit.withDefault "kind" _ rfl (reads_classKind header.kind), fit.flag "is_abstract" rfl,
      fit.list "annotations" rfl (reads_texts header.annotations),
      fit.optional "supertype" rfl supertype,
      fit.list "fields" rfl (Reads.list_map fun field _ => reads_field field),
      fit.list "methods" rfl (Reads.list_map fun method _ => reads_methodDecl method),
      fit.list "nested" rfl (reads_classesWithin nested bound)]

/-- Classes are read from their encoding. -/
theorem reads_classesWithin :
    ∀ (classes : List ClassDecl) (bound : Nat),
      Reads (list (decodeClassWithin bound)) bound (.array (encodeClasses classes)) classes
  | [], _ => .list_nil _
  | declared :: rest, bound =>
    .list_cons (reads_classWithin declared bound) (reads_classesWithin rest bound)

end

/-- Classes are written one by one. -/
theorem encodeClasses_eq_map (classes : List ClassDecl) :
    encodeClasses classes = classes.map encodeClass := by
  induction classes with
  | nil => rfl
  | cons declared rest ih => rw [encodeClasses, ih]; rfl

/-- Imports are read back. -/
theorem reads_import (entry : Import) : Reads decodeImport bound (encodeImport entry) entry := by
  refine Reads.weaken (.record rfl rfl fun levels fit => ?_)
  simp [fit.required "type_name" rfl (reads_text entry.typeName), fit.flag "is_static" rfl]

/-- A text that may be missing is read back. -/
theorem reads_optionalText (content : Option String) :
    Reads (optional text) bound (encodeOption .string content) content :=
  Reads.option (fun value _ => reads_text value) fun _ => nofun

/-- A unit is read from its encoding. -/
theorem reads_unit (unit : CompilationUnit) : Reads decodeUnit bound (encodeUnit unit) unit := by
  have classes : Reads (list decodeClass) bound (.array (encodeClasses unit.classes))
      unit.classes := by
    rw [encodeClasses_eq_map]
    exact Reads.list_map fun declared _ =>
      Reads.ofWithin decodeClassWithin (reads_classWithin declared)
  refine Reads.weaken (.record rfl rfl fun levels fit => ?_)
  simp [fit.optional "source_path" rfl (reads_optionalText unit.sourcePath),
    fit.optional "package" rfl (reads_optionalText unit.package),
    fit.list "imports" rfl (Reads.list_map fun entry _ => reads_import entry),
    fit.list "classes" rfl classes]

/-! ## Encodings have no numbers -/

/-- A word of a table is plain. -/
@[simp] theorem plain_wordFor {α : Type} [DecidableEq α] (table : List (String × α)) (value : α) :
    (wordFor table value).Plain := by
  unfold wordFor
  split <;> simp

/-- Optional content is plain if its items are. -/
@[simp] theorem plain_encodeOption {α : Type} {encode : α → Json}
    (each : ∀ value, (encode value).Plain) (content : Option α) :
    (encodeOption encode content).Plain := by
  cases content with
  | none => exact .null
  | some value => exact each value

/-- Lists of texts are plain. -/
@[simp] theorem plain_encodeTexts (texts : List String) : (encodeTexts texts).Plain := by
  simp [encodeTexts]

/-- A tag keeps content plain. -/
@[simp] theorem plain_tagged {name : String} {content : Json} :
    (tagged name content).Plain ↔ content.Plain := by
  simp [tagged]

/-- Member fields are plain. -/
@[simp] theorem plain_encodeMemberField (field : MemberField) : (encodeMemberField field).Plain := by
  simp [encodeMemberField]

/-- Class entries are plain. -/
@[simp] theorem plain_encodeEntry (ancestors : List ClassEntry) :
    ∀ entry, (encodeEntry entry ancestors).Plain := by
  induction ancestors with
  | nil =>
    intro entry
    simp [encodeEntry]
  | cons parent ancestors ih =>
    intro entry
    simp [encodeEntry, ih]

/-- Class types are plain. -/
@[simp] theorem plain_encodeClassType (type : ClassType) : (encodeClassType type).Plain :=
  plain_encodeEntry type.ancestors type.toClassEntry

/-- Types are plain. -/
@[simp] theorem plain_encodeType (type : JavaType) : (encodeType type).Plain := by
  induction type with
  | primitive kind => simp [encodeType]
  | classType type => simp [encodeType]
  | array element ih => simp [encodeType, ih]

/-- Signatures are plain. -/
@[simp] theorem plain_encodeMethod (method : ResolvedMethod) : (encodeMethod method).Plain := by
  simp [encodeMethod]

/-- Literals are plain. -/
@[simp] theorem plain_encodeLiteral (value : Literal) : (encodeLiteral value).Plain := by
  cases value <;> simp [encodeLiteral]

mutual

/-- Expressions are plain. -/
@[simp] theorem plain_encodeExpr : ∀ expr : Expr, (encodeExpr expr).Plain
  | .literal _ | .identifier _ _ | .typeRef _ | .classLiteral _ => by simp [encodeExpr]
  | .fieldAccess target _ _ => by simp [encodeExpr, plain_encodeExpr target]
  | .methodCall (some select) _ arguments _ => by
    simp [encodeExpr, plain_encodeExpr select, plain_encodeExprs arguments]
  | .methodCall none _ arguments _ => by simp [encodeExpr, plain_encodeExprs arguments]
  | .binary _ left right _ => by simp [encodeExpr, plain_encodeExpr left, plain_encodeExpr right]
  | .newClass _ arguments => by simp [encodeExpr, plain_encodeExprs arguments]
  | .newArray _ elements => by simp [encodeExpr, plain_encodeExprs elements]
  | .lambda _ body => by simp [encodeExpr, plain_encodeStatements body]
  | .parens inner => by simp [encodeExpr, plain_encodeExpr inner]

/-- So are lists of expressions. -/
theorem plain_encodeExprs : ∀ exprs : List Expr, (Json.array (encodeExprs exprs)).Plain
  | [] => by simp [encodeExprs]
  | expr :: rest => by simp [encodeExprs, plain_encodeExpr expr, plain_encodeExprs rest]

/-- Statements are plain. -/
theorem plain_encodeStatement : ∀ statement : Statement, (encodeStatement statement).Plain
  | .expression value => by simp [encodeStatement, plain_encodeExpr value]
  | .declaration _ _ (some initial) => by simp [encodeStatement, plain_encodeExpr initial]
  | .declaration _ _ none | .returning none => by simp [encodeStatement]
  | .block body => by simp [encodeStatement, plain_encodeStatements body]
  | .conditional condition thenBranch (some elseBranch) => by
    simp [encodeStatement, plain_encodeExpr condition, plain_encodeStatements thenBranch,
      plain_encodeStatements elseBranch]
  | .conditional condition thenBranch none => by
    simp [encodeStatement, plain_encodeExpr condition, plain_encodeStatements thenBranch]
  | .guarded body catches (some finallyBlock) => by
    simp [encodeStatement, plain_encodeStatements body, plain_encodeCatches catches,
      plain_encodeStatements finallyBlock]
  | .guarded body catches none => by
    simp [encodeStatement, plain_encodeStatements body, plain_encodeCatches catches]
  | .returning (some value) => by simp [encodeStatement, plain_encodeExpr value]

/-- So are blocks. -/
theorem plain_encodeStatements :
    ∀ statements : List Statement, (Json.array (encodeStatements statements)).Plain
  | [] => by simp [encodeStatements]
  | statement :: rest => by
    simp [encodeStatements, plain_encodeStatement statement, plain_encodeStatements rest]

/-- So are catch clauses. -/
theorem plain_encodeCatches :
    ∀ catches : List CatchClause, (Json.array (encodeCatches catches)).Plain
  | [] => by simp [encodeCatches]
  | .handler _ _ body :: rest => by
    simp [encodeCatches, plain_encodeStatements body, plain_encodeCatches rest]

end

mutual

/-- Classes are plain. -/
theorem plain_encodeClass : ∀ declared : ClassDecl, (encodeClass declared).Plain
  | .decl _ _ _ nested => by
    simp [encodeClass, encodeField, encodeModifiers, encodeMethodDecl, encodeParameter,
      plain_encodeStatements, plain_encodeClasses nested]

/-- So are lists of classes. -/
theorem plain_encodeClasses : ∀ classes : List ClassDecl, (Json.array (encodeClasses classes)).Plain
  | [] => by simp [encodeClasses]
  | declared :: rest => by simp [encodeClasses, plain_encodeClass declared, plain_encodeClasses rest]

end

/-- No encoding of a unit has numbers in it. -/
theorem plain_encodeUnit (unit : CompilationUnit) : (encodeUnit unit).Plain := by
  simp [encodeUnit, encodeImport, plain_encodeClasses]

end Interchange

open Interchange

/-- **Documents lose nothing.** A unit that is written as a document is read back from that text as the
same unit, if arrays and objects are nested no deeper in the document than in documents that are read.
-/
theorem CompilationUnit.ofText_render (unit : CompilationUnit)
    (shallow : (encodeUnit unit).nesting ≤ maxNesting) :
    ofText (OutputFormat.document.render unit) = .ok unit := by
  have read : decodeUnit maxNesting (encodeUnit unit) = some unit :=
    reads_unit unit maxNesting (Nat.le_refl maxNesting) shallow
  have parsed : Json.parse? (OutputFormat.document.render unit) = some (encodeUnit unit) :=
    Json.parse?_pretty (plain_encodeUnit unit)
  rw [ofText, parsed, Option.bind_some, read]

/-- A text with quotes, a control character and a character outside of ASCII; a method that returns
nothing; and a field of an array type. -/
theorem CompilationUnit.ofText_render_escaped :
    let field : FieldDecl :=
      { name := "names", type := .array .string, initializer := some (.string "\"ß\\u0007\x07") }
    let method : MethodDecl := { name := "close", body := [.returning none] }
    let unit : CompilationUnit := {
      package := some "p", imports := [{ typeName := "java.util.List" }]
      classes := [.decl { name := "A", fqn := "p.A" } [field] [method] []] }
    (encodeUnit unit).nesting = 7 ∧ ofText (OutputFormat.document.render unit) = .ok unit := by
  intro field method unit
  have deep : (encodeUnit unit).nesting = 7 := by decide
  exact ⟨deep, ofText_render unit (by rw [deep]; decide)⟩

end LogCalls
