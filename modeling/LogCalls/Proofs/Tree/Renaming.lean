import LogCalls.Tree.References
import LogCalls.Tree.Source

/-! # Renaming of classes

The class names of a tree stand in two kinds of places. Some are written out in the source text, others
are only attached to nodes, such as the static type of an identifier or the class that declares a called
method. The classes that a unit counts as named are those of the first kind: a renaming that leaves them
alone leaves the text alone, whatever it does to all the others. -/

namespace LogCalls

/-- The mapping leaves each of the names alone. -/
def Fixes (mapping : String → String) (names : List String) : Prop :=
  ∀ name ∈ names, mapping name = name

section Fixes

variable {mapping : String → String}

/-- One name is fixed if it maps to itself. -/
@[simp] theorem fixes_singleton {name : String} : Fixes mapping [name] ↔ mapping name = name :=
  List.forall_mem_singleton

/-- Lists are fixed if both parts are. -/
@[simp] theorem fixes_append {first second : List String} :
    Fixes mapping (first ++ second) ↔ Fixes mapping first ∧ Fixes mapping second :=
  List.forall_mem_append

/-- All that a list of nodes names is left alone if all that each of them names is. -/
theorem Fixes.of_flatMap {α : Type} {references : α → List String} {nodes : List α}
    (fixed : Fixes mapping (nodes.flatMap references)) {node : α} (member : node ∈ nodes) :
    Fixes mapping (references node) :=
  fun name named => fixed name (List.mem_flatMap.mpr ⟨node, member, named⟩)

end Fixes

/-! ## Types -/

/-- The field with the name of its type replaced. -/
def MemberField.rename (mapping : String → String) (field : MemberField) : MemberField :=
  { field with typeName := mapping field.typeName }

/-- The class with its name and the types of its fields replaced. -/
def ClassEntry.rename (mapping : String → String) (entry : ClassEntry) : ClassEntry where
  fqn := mapping entry.fqn
  fields := entry.fields.map (·.rename mapping)

/-- The class type with the names of the class and of all its ancestors replaced. -/
def ClassType.rename (mapping : String → String) (type : ClassType) : ClassType where
  toClassEntry := type.toClassEntry.rename mapping
  ancestors := type.ancestors.map (·.rename mapping)

namespace JavaType

/-- The type with every class name in it replaced. -/
def rename (mapping : String → String) : JavaType → JavaType
  | .primitive kind => .primitive kind
  | .classType type => .classType (type.rename mapping)
  | .array element => .array (element.rename mapping)

/-- Fixed types keep their source names. -/
theorem sourceName_rename {mapping : String → String} {type : JavaType}
    (fixed : Fixes mapping type.references) : (type.rename mapping).sourceName = type.sourceName := by
  induction type with
  | primitive kind => rfl
  | classType type =>
    have same : mapping type.fqn = type.fqn := fixes_singleton.mp fixed
    show simpleName (mapping type.fqn) = simpleName type.fqn
    rw [same]
  | array element ih =>
    show (element.rename mapping).sourceName ++ "[]" = element.sourceName ++ "[]"
    rw [ih fixed]

end JavaType

/-- The method with the names of its class and of its result's type replaced. -/
def ResolvedMethod.rename (mapping : String → String) (method : ResolvedMethod) : ResolvedMethod :=
  { method with
    declaringType := mapping method.declaringType
    returnType := method.returnType.map (·.rename mapping) }

/-! ## Expressions and statements -/

mutual

/-- The expression with every class name in it replaced, in the source text and in attached types. -/
def Expr.rename (mapping : String → String) : Expr → Expr
  | .literal value => .literal value
  | .identifier name type => .identifier name (type.map (·.rename mapping))
  | .typeRef fqn => .typeRef (mapping fqn)
  | .fieldAccess target name type =>
    .fieldAccess (target.rename mapping) name (type.map (·.rename mapping))
  | .methodCall (some select) name arguments method =>
    .methodCall (some (select.rename mapping)) name (Expr.renameList mapping arguments)
      (method.map (·.rename mapping))
  | .methodCall none name arguments method =>
    .methodCall none name (Expr.renameList mapping arguments) (method.map (·.rename mapping))
  | .binary operator left right type =>
    .binary operator (left.rename mapping) (right.rename mapping) (type.map (·.rename mapping))
  | .newClass type arguments =>
    .newClass (type.rename mapping) (Expr.renameList mapping arguments)
  | .newArray element elements =>
    .newArray (element.rename mapping) (Expr.renameList mapping elements)
  | .classLiteral fqn => .classLiteral (mapping fqn)
  | .lambda parameters body => .lambda parameters (Statement.renameList mapping body)
  | .parens inner => .parens (inner.rename mapping)

/-- The expressions with every class name in them replaced. -/
def Expr.renameList (mapping : String → String) : List Expr → List Expr
  | [] => []
  | expr :: rest => expr.rename mapping :: Expr.renameList mapping rest

/-- The statement with every class name in it replaced. -/
def Statement.rename (mapping : String → String) : Statement → Statement
  | .expression value => .expression (value.rename mapping)
  | .declaration name type (some initial) =>
    .declaration name (type.rename mapping) (some (initial.rename mapping))
  | .declaration name type none => .declaration name (type.rename mapping) none
  | .block body => .block (Statement.renameList mapping body)
  | .conditional condition thenBranch (some elseBranch) =>
    .conditional (condition.rename mapping) (Statement.renameList mapping thenBranch)
      (some (Statement.renameList mapping elseBranch))
  | .conditional condition thenBranch none =>
    .conditional (condition.rename mapping) (Statement.renameList mapping thenBranch) none
  | .guarded body catches (some finallyBlock) =>
    .guarded (Statement.renameList mapping body) (CatchClause.renameList mapping catches)
      (some (Statement.renameList mapping finallyBlock))
  | .guarded body catches none =>
    .guarded (Statement.renameList mapping body) (CatchClause.renameList mapping catches) none
  | .returning (some value) => .returning (some (value.rename mapping))
  | .returning none => .returning none

/-- The statements with every class name in them replaced. -/
def Statement.renameList (mapping : String → String) : List Statement → List Statement
  | [] => []
  | statement :: rest => statement.rename mapping :: Statement.renameList mapping rest

/-- The handlers with every class name in them replaced. -/
def CatchClause.renameList (mapping : String → String) : List CatchClause → List CatchClause
  | [] => []
  | .handler parameter type body :: rest =>
    .handler parameter (type.rename mapping) (Statement.renameList mapping body) ::
      CatchClause.renameList mapping rest

end

section Nodes

variable {mapping : String → String}

-- Collection and printing walk over the same trees; each case shows that what the printer writes at a
-- node is among what is collected there.
mutual

/-- An expression is written as before if the classes that it names are left alone. -/
theorem Expr.source_rename :
    ∀ expr : Expr, Fixes mapping expr.references → (expr.rename mapping).source = expr.source
  | .literal _, _ => by simp only [Expr.rename]
  | .identifier _ _, _ => by simp only [Expr.rename, Expr.source]
  | .typeRef _, fixed => by
    simp only [Expr.references, fixes_singleton] at fixed
    simp only [Expr.rename, fixed]
  | .fieldAccess target _ _, fixed => by
    simp only [Expr.references] at fixed
    simp only [Expr.rename, Expr.source, Expr.source_rename target fixed]
  | .methodCall (some select) _ arguments _, fixed => by
    simp only [Expr.references, fixes_append] at fixed
    simp only [Expr.rename, Expr.source, Expr.source_rename select fixed.1,
      Expr.sources_renameList arguments fixed.2]
  | .methodCall none _ arguments _, fixed => by
    simp only [Expr.references] at fixed
    simp only [Expr.rename, Expr.source, Expr.sources_renameList arguments fixed]
  | .binary _ left right _, fixed => by
    simp only [Expr.references, fixes_append] at fixed
    simp only [Expr.rename, Expr.source, Expr.source_rename left fixed.1,
      Expr.source_rename right fixed.2]
  | .newClass _ arguments, fixed => by
    simp only [Expr.references, fixes_append] at fixed
    simp only [Expr.rename, Expr.source, JavaType.sourceName_rename fixed.1,
      Expr.sources_renameList arguments fixed.2]
  | .newArray _ elements, fixed => by
    simp only [Expr.references, fixes_append] at fixed
    simp only [Expr.rename, Expr.source, JavaType.sourceName_rename fixed.1,
      Expr.sources_renameList elements fixed.2]
  | .classLiteral _, fixed => by
    simp only [Expr.references, fixes_singleton] at fixed
    simp only [Expr.rename, fixed]
  | .lambda _ body, fixed => by
    simp only [Expr.references] at fixed
    simp only [Expr.rename, Expr.source, Statement.inlineSources_renameList body fixed]
  | .parens inner, fixed => by
    simp only [Expr.references] at fixed
    simp only [Expr.rename, Expr.source, Expr.source_rename inner fixed]

/-- Fixed arguments keep their sources. -/
theorem Expr.sources_renameList :
    ∀ exprs : List Expr, Fixes mapping (Expr.referencesList exprs) →
      Expr.sources (Expr.renameList mapping exprs) = Expr.sources exprs
  | [], _ => by simp only [Expr.renameList]
  | expr :: rest, fixed => by
    simp only [Expr.referencesList, fixes_append] at fixed
    simp only [Expr.renameList, Expr.sources, Expr.source_rename expr fixed.1,
      Expr.sources_renameList rest fixed.2]

/-- A statement is written as before, at any depth, if the classes that it names are left alone. -/
theorem Statement.lines_rename :
    ∀ (statement : Statement) (depth : Nat), Fixes mapping statement.references →
      (statement.rename mapping).lines depth = statement.lines depth
  | .expression value, _, fixed => by
    simp only [Statement.references] at fixed
    simp only [Statement.rename, Statement.lines, Expr.source_rename value fixed]
  | .declaration _ _ (some initial), _, fixed => by
    simp only [Statement.references, fixes_append] at fixed
    simp only [Statement.rename, Statement.lines, JavaType.sourceName_rename fixed.1,
      Expr.source_rename initial fixed.2]
  | .declaration _ _ none, _, fixed => by
    simp only [Statement.references] at fixed
    simp only [Statement.rename, Statement.lines, JavaType.sourceName_rename fixed]
  | .block body, depth, fixed => by
    simp only [Statement.references] at fixed
    simp only [Statement.rename, Statement.lines, Statement.blockLines_renameList body _ fixed]
  | .conditional condition thenBranch (some elseBranch), _, fixed => by
    simp only [Statement.references, fixes_append] at fixed
    obtain ⟨⟨onCondition, onThen⟩, onElse⟩ := fixed
    simp only [Statement.rename, Statement.lines, Expr.source_rename condition onCondition,
      Statement.blockLines_renameList thenBranch _ onThen,
      Statement.blockLines_renameList elseBranch _ onElse]
  | .conditional condition thenBranch none, _, fixed => by
    simp only [Statement.references, fixes_append] at fixed
    obtain ⟨onCondition, onThen⟩ := fixed
    simp only [Statement.rename, Statement.lines, Expr.source_rename condition onCondition,
      Statement.blockLines_renameList thenBranch _ onThen]
  | .guarded body catches (some finallyBlock), _, fixed => by
    simp only [Statement.references, fixes_append] at fixed
    obtain ⟨⟨onBody, onCatches⟩, onFinally⟩ := fixed
    simp only [Statement.rename, Statement.lines, Statement.blockLines_renameList body _ onBody,
      CatchClause.lines_renameList catches _ onCatches,
      Statement.blockLines_renameList finallyBlock _ onFinally]
  | .guarded body catches none, _, fixed => by
    simp only [Statement.references, fixes_append] at fixed
    obtain ⟨onBody, onCatches⟩ := fixed
    simp only [Statement.rename, Statement.lines, Statement.blockLines_renameList body _ onBody,
      CatchClause.lines_renameList catches _ onCatches]
  | .returning (some value), _, fixed => by
    simp only [Statement.references] at fixed
    simp only [Statement.rename, Statement.lines, Expr.source_rename value fixed]
  | .returning none, _, _ => by simp only [Statement.rename]

/-- Fixed blocks keep their lines. -/
theorem Statement.blockLines_renameList :
    ∀ (block : List Statement) (depth : Nat), Fixes mapping (Statement.referencesList block) →
      Statement.blockLines depth (Statement.renameList mapping block) =
        Statement.blockLines depth block
  | [], _, _ => by simp only [Statement.renameList]
  | statement :: rest, depth, fixed => by
    simp only [Statement.referencesList, fixes_append] at fixed
    simp only [Statement.renameList, Statement.blockLines,
      Statement.lines_rename statement depth fixed.1,
      Statement.blockLines_renameList rest depth fixed.2]

/-- The same on one line. -/
theorem Statement.inlineSources_renameList :
    ∀ block : List Statement, Fixes mapping (Statement.referencesList block) →
      Statement.inlineSources (Statement.renameList mapping block) = Statement.inlineSources block
  | [], _ => by simp only [Statement.renameList]
  | statement :: rest, fixed => by
    simp only [Statement.referencesList, fixes_append] at fixed
    simp only [Statement.renameList, Statement.inlineSources,
      Statement.lines_rename statement 0 fixed.1,
      Statement.inlineSources_renameList rest fixed.2]

/-- The same for catch clauses. -/
theorem CatchClause.lines_renameList :
    ∀ (catches : List CatchClause) (depth : Nat), Fixes mapping (CatchClause.referencesList catches) →
      CatchClause.lines depth (CatchClause.renameList mapping catches) =
        CatchClause.lines depth catches
  | [], _, _ => by simp only [CatchClause.renameList]
  | .handler _ _ body :: rest, depth, fixed => by
    simp only [CatchClause.referencesList, fixes_append] at fixed
    obtain ⟨⟨onType, onBody⟩, onRest⟩ := fixed
    simp only [CatchClause.renameList, CatchClause.lines, JavaType.sourceName_rename onType,
      Statement.blockLines_renameList body _ onBody,
      CatchClause.lines_renameList rest depth onRest]

end

end Nodes

/-! ## Members and classes -/

namespace FieldDecl

/-- The field with every class name in it replaced. -/
def rename (mapping : String → String) (field : FieldDecl) : FieldDecl :=
  { field with
    type := field.type.rename mapping
    initializer := field.initializer.map (·.rename mapping) }

/-- Fixed fields keep their sources. -/
theorem source_rename {mapping : String → String} {field : FieldDecl}
    (fixed : Fixes mapping field.references) : (field.rename mapping).source = field.source := by
  obtain ⟨onType, onInitializer⟩ := fixes_append.mp fixed
  unfold source rename
  simp only [JavaType.sourceName_rename onType]
  cases held : field.initializer with
  | none => rfl
  | some initial =>
    rw [held] at onInitializer
    simp only [Option.map_some, Expr.source_rename initial onInitializer]

end FieldDecl

/-- The parameter with every class name in its type replaced. -/
def Parameter.rename (mapping : String → String) (parameter : Parameter) : Parameter :=
  { parameter with type := parameter.type.rename mapping }

namespace MethodDecl

/-- The method with every class name in it replaced. -/
def rename (mapping : String → String) (method : MethodDecl) : MethodDecl :=
  { method with
    returnType := method.returnType.map (·.rename mapping)
    parameters := method.parameters.map (·.rename mapping)
    body := Statement.renameList mapping method.body }

/-- Fixed methods keep their lines. -/
theorem lines_rename {mapping : String → String} {method : MethodDecl}
    (fixed : Fixes mapping method.references) (depth : Nat) :
    (method.rename mapping).lines depth = method.lines depth := by
  obtain ⟨onHead, onBody⟩ := fixes_append.mp fixed
  obtain ⟨onResult, onParameters⟩ := fixes_append.mp onHead
  have result : (method.returnType.map (·.rename mapping)).map (·.sourceName) =
      method.returnType.map (·.sourceName) := by
    cases held : method.returnType with
    | none => rfl
    | some type =>
      rw [held] at onResult
      exact congrArg some (JavaType.sourceName_rename onResult)
  have parameters : (method.parameters.map (·.rename mapping)).map
        (fun parameter => parameter.type.sourceName ++ " " ++ parameter.name) =
      method.parameters.map fun parameter => parameter.type.sourceName ++ " " ++ parameter.name := by
    rw [List.map_map]
    refine List.map_congr_left fun parameter member => ?_
    show (parameter.type.rename mapping).sourceName ++ " " ++ parameter.name = _
    rw [JavaType.sourceName_rename (onParameters.of_flatMap member)]
  have opening : (method.rename mapping).opening = method.opening := by
    simp only [MethodDecl.opening, rename, result, parameters]
  rw [lines, opening, lines]
  simp only [rename, Statement.blockLines_renameList method.body _ onBody]

end MethodDecl

namespace ClassHeader

/-- The header with every class name in it replaced, that of the class included. The word that the
declaration itself is written with stays. -/
def rename (mapping : String → String) (header : ClassHeader) : ClassHeader :=
  { header with
    fqn := mapping header.fqn
    annotations := header.annotations.map mapping
    supertype := header.supertype.map (·.rename mapping) }

/-- Fixed headers keep their opening. -/
theorem opening_rename {mapping : String → String} {header : ClassHeader}
    (fixed : Fixes mapping header.references) : (header.rename mapping).opening = header.opening := by
  obtain ⟨-, onSupertype⟩ := fixes_append.mp fixed
  unfold opening rename keyword
  cases held : header.supertype with
  | none => rfl
  | some supertype =>
    rw [held] at onSupertype
    have same : mapping supertype.fqn = supertype.fqn := fixes_singleton.mp onSupertype
    simp only [Option.map_some, ClassType.rename, ClassEntry.rename, same]

/-- The annotations are among the classes that a header names. -/
theorem annotations_rename {mapping : String → String} {header : ClassHeader}
    (fixed : Fixes mapping header.references) :
    (header.rename mapping).annotations = header.annotations := by
  obtain ⟨onAnnotations, -⟩ := fixes_append.mp fixed
  exact List.map_congr_left onAnnotations |>.trans (List.map_id' _)

end ClassHeader

namespace ClassDecl

mutual

/-- The class with every class name in it replaced. -/
def rename (mapping : String → String) : ClassDecl → ClassDecl
  | .decl header fields methods nested =>
    .decl (header.rename mapping) (fields.map (·.rename mapping)) (methods.map (·.rename mapping))
      (renameList mapping nested)

/-- The classes with every class name in them replaced. -/
def renameList (mapping : String → String) : List ClassDecl → List ClassDecl
  | [] => []
  | first :: rest => first.rename mapping :: renameList mapping rest

end

mutual

/-- A class is written as before, at any depth, if the classes that it names are left alone. -/
theorem lines_rename {mapping : String → String} :
    ∀ (declared : ClassDecl) (depth : Nat), Fixes mapping declared.references →
      (declared.rename mapping).lines depth = declared.lines depth
  | .decl header fields methods nested, depth, fixed => by
    simp only [references, fixes_append] at fixed
    obtain ⟨⟨⟨onHeader, onFields⟩, onMethods⟩, onNested⟩ := fixed
    have sameFields : (fields.map (·.rename mapping)).map
          (fun field => indented (depth + 1) field.source) =
        fields.map fun field => indented (depth + 1) field.source := by
      rw [List.map_map]
      refine List.map_congr_left fun field member => ?_
      show indented (depth + 1) (field.rename mapping).source = _
      rw [FieldDecl.source_rename (onFields.of_flatMap member)]
    have sameMethods : (methods.map (·.rename mapping)).map (MethodDecl.lines (depth + 1)) =
        methods.map (MethodDecl.lines (depth + 1)) := by
      rw [List.map_map]
      exact List.map_congr_left fun method member =>
        MethodDecl.lines_rename (onMethods.of_flatMap member) (depth + 1)
    simp only [rename, lines, ClassHeader.annotations_rename onHeader,
      ClassHeader.opening_rename onHeader, sameFields, sameMethods, List.isEmpty_map,
      nestedLines_renameList nested (depth + 1) onNested]

/-- Fixed nested classes keep their lines. -/
theorem nestedLines_renameList {mapping : String → String} :
    ∀ (nested : List ClassDecl) (depth : Nat), Fixes mapping (referencesList nested) →
      nestedLines depth (renameList mapping nested) = nestedLines depth nested
  | [], _, _ => by simp only [renameList]
  | first :: rest, depth, fixed => by
    simp only [referencesList, fixes_append] at fixed
    simp only [renameList, nestedLines, lines_rename first depth fixed.1,
      nestedLines_renameList rest depth fixed.2]

end

/-- Nested classes are written one by one. -/
theorem nestedLines_eq_map (depth : Nat) (nested : List ClassDecl) :
    nestedLines depth nested = nested.map (lines depth) := by
  induction nested with
  | nil => rfl
  | cons first rest ih =>
    rw [nestedLines, ih, List.map_cons]

end ClassDecl

namespace CompilationUnit

/-- The unit with every class name in its classes replaced. Package and imports stay. -/
def rename (mapping : String → String) (unit : CompilationUnit) : CompilationUnit :=
  { unit with classes := ClassDecl.renameList mapping unit.classes }

/-- The types a unit refers to, each once. -/
theorem mem_referencedTypes {unit : CompilationUnit} {name : String} :
    name ∈ unit.referencedTypes ↔ name ∈ unit.references := by
  simp [referencedTypes]

/-- **References cover the source text.** A renaming that leaves alone what a unit refers to leaves its
text alone, whatever else it does to the class names in the unit. -/
theorem source_rename_unreferenced (unit : CompilationUnit) (mapping : String → String)
    (fixed : ∀ name ∈ unit.referencedTypes, mapping name = name) :
    (unit.rename mapping).source = unit.source := by
  have onClasses : Fixes mapping (ClassDecl.referencesList unit.classes) :=
    fun name named => fixed name (mem_referencedTypes.mpr named)
  have sameClasses : (unit.rename mapping).classes.map (ClassDecl.lines 0) =
      unit.classes.map (ClassDecl.lines 0) := by
    rw [← ClassDecl.nestedLines_eq_map, ← ClassDecl.nestedLines_eq_map]
    exact ClassDecl.nestedLines_renameList unit.classes 0 onClasses
  have sameLines : (unit.rename mapping).lines = unit.lines := by
    rw [lines, sameClasses]
    rfl
  rw [source, sameLines, source]

/-- A class that logs through an annotation: its logger's class is attached to the calls but never
written out, so the class can be given another name without a trace in the text. -/
theorem source_rename_unreferenced_logger :
    let mapping := fun name =>
      if name = "org.slf4j.Logger" then "org.apache.logging.log4j.Logger" else name
    let logged : Expr := .call (.ident "log" (.named "org.slf4j.Logger")) "warn"
      [.ident "problem" (.named "java.io.IOException")] (.onInstance "org.slf4j.Logger" "warn")
    let handled : Statement := .guarded [.expression (.newClass (.named "app.Job") [])]
      [.handler "problem" (.named "java.io.IOException") [.expression logged]] none
    let unit : CompilationUnit := {
      classes := [.decl {
        name := "Runner", fqn := "app.Runner", annotations := ["lombok.extern.slf4j.Slf4j"]
        supertype := some (.named "app.Base") } []
        [{ name := "run", parameters := [⟨"name", .string⟩], body := [handled] }] []] }
    unit.rename mapping ≠ unit ∧ (∀ name ∈ unit.referencedTypes, mapping name = name) ∧
      (unit.rename mapping).source = unit.source := by
  intro mapping logged handled unit
  have fixed : ∀ name ∈ unit.referencedTypes, mapping name = name := by
    intro name named
    have within : ∀ name ∈ unit.references, mapping name = name := by decide
    exact within name (mem_referencedTypes.mp named)
  exact ⟨by decide, fixed, source_rename_unreferenced unit mapping fixed⟩

end CompilationUnit

end LogCalls
