import LogCalls.Engine.Statistics
import LogCalls.Rule.Basic
import LogCalls.Tree.Nesting
import LogCalls.Tree.References

/-! # One pass over a unit

A pass offers every node of a unit to the rules, from the inside out, and puts their replacements in
place. Blocks are offered before the statements in them. What a pass collects on its way is its
`Progress`; the counts in it survive a failure. -/

namespace LogCalls

/-- What a pass has collected, and where it stands. -/
structure Progress where
  statistics : Statistics
  /-- The effects of all replacements. -/
  effects : Effects := {}
  /-- How many replacements were made. -/
  replacements : Nat := 0
  /-- The classes around the node, with the fields that were requested for the innermost. -/
  scope : Scope := {}
  /-- The fields that were requested for the innermost class, in order. -/
  requests : List FieldRequest := []

namespace Progress

/-- Count for a rule. -/
def count (progress : Progress) (rule : Rule) (change : RuleStatistics → RuleStatistics) :
    Progress :=
  { progress with statistics := progress.statistics.update rule.name change }

/-- Count a replacement of a rule. -/
def countReplacement (progress : Progress) (rule : Rule) : Progress :=
  { progress.count rule RuleStatistics.transformed with replacements := progress.replacements + 1 }

/-- Collect the effects of a replacement. -/
def collect (progress : Progress) (effects : Effects) : Progress :=
  { progress with effects := progress.effects.merge effects }

/-- Request a field for the innermost class. It is visible to later replacements at once, so the
class is given one field however many calls need it. -/
def request (progress : Progress) (request : FieldRequest) : Progress :=
  if progress.scope.current.declares request.fieldName then progress
  else { progress with
    scope := { progress.scope with current := progress.scope.current.addField request.declaration }
    requests := progress.requests ++ [request] }

/-- Collect the effects of a replacement, and the field that it requests. -/
def absorb (progress : Progress) (effects : Effects) : Progress :=
  let progress := match effects.field with
    | some field => progress.request field
    | none => progress
  progress.collect { effects with field := none }

/-- Enter a class. -/
def enter (progress : Progress) (scope : Scope) : Progress := { progress with scope, requests := [] }

/-- See the fields of the innermost class as they are now. -/
def seeFields (progress : Progress) (fields : List FieldDecl) : Progress :=
  { progress with
    scope := { progress.scope with current := { progress.scope.current with fields } } }

end Progress

/-- A part of a pass. The progress survives a failure. -/
abbrev PassM := EStateM Error Progress

namespace Pass

/-- How many levels a pass goes down, counting classes and expressions. -/
def maxDepth : Nat := 100

/-- Offer an expression to a rule, with the number of levels that are left. -/
def offerExpr (depth : Nat) (expr : Expr) (rule : Rule) : PassM Expr := do
  let progress ← get
  let scope := progress.scope.goDown depth
  if rule.applies expr scope then
    match rule.onExpr expr scope with
    | .error reason =>
      set (progress.count rule RuleStatistics.failed)
      throw (.ruleFailed rule.name (.expression progress.scope.current.fqn) reason)
    | .ok none =>
      set (progress.count rule RuleStatistics.applied)
      return expr
    | .ok (some replacement) =>
      if replacement.expr = expr then
        set (progress.count rule RuleStatistics.applied)
        return expr
      else
        set ((progress.countReplacement rule).absorb replacement.effects)
        return replacement.expr
  else return expr

/-- Offer the statements of a block to a rule, with the number of levels that are left. -/
def offerBlock (depth : Nat) (block : List Statement) (rule : Rule) : PassM (List Statement) := do
  let progress ← get
  match rule.onBlock block (progress.scope.goDown depth) with
  | .error reason => throw (.ruleFailed rule.name .block reason)
  | .ok none => return block
  | .ok (some replacement) =>
    if replacement.statements = block then
      set (progress.count rule RuleStatistics.applied)
      return block
    else
      set ((progress.countReplacement rule).absorb replacement.effects)
      return replacement.statements

/-- Offer a field to a rule. `around` gives the class with the field in its place. -/
def offerField (around : FieldDecl → ClassDecl) (field : FieldDecl) (rule : Rule) :
    PassM FieldDecl := do
  let progress ← get
  match rule.onField field (around field) progress.scope with
  | .error reason => throw (.ruleFailed rule.name (.field field.name) reason)
  | .ok none => return field
  | .ok (some replacement) =>
    if replacement.field = field then
      set (progress.count rule RuleStatistics.applied)
      return field
    else
      set ((progress.countReplacement rule).collect replacement.effects)
      return replacement.field

/-- Transform the parts of a node, then offer the node to all rules, unless the pass has come to its
greatest depth. -/
def atNode (rules : List Rule) (depth : Nat) (node : Expr) (rebuild : Nat → PassM Expr) :
    PassM Expr :=
  match depth with
  | 0 => return node
  | inner + 1 => do rules.foldlM (offerExpr (inner + 1)) (← rebuild inner)

/-- How a pass goes on with a block that it meets at some depth. -/
abbrev OnBlock := Nat → List Statement → PassM (List Statement)

mutual

/-- The pass on an expression, with the number of levels that are left. -/
def visitExpr (rules : List Rule) (onBlock : OnBlock) (depth : Nat) : Expr → PassM Expr
  | .literal value => atNode rules depth (.literal value) fun _ => return .literal value
  | .identifier name type =>
    atNode rules depth (.identifier name type) fun _ => return .identifier name type
  | .typeRef fqn => atNode rules depth (.typeRef fqn) fun _ => return .typeRef fqn
  | .fieldAccess target name type =>
    atNode rules depth (.fieldAccess target name type) fun inner => do
      return .fieldAccess (← visitExpr rules onBlock inner target) name type
  | .methodCall (some select) name arguments method =>
    atNode rules depth (.methodCall (some select) name arguments method) fun inner => do
      let select ← visitExpr rules onBlock inner select
      let arguments ← visitExprs rules onBlock inner arguments
      return .methodCall (some select) name arguments method
  | .methodCall none name arguments method =>
    atNode rules depth (.methodCall none name arguments method) fun inner => do
      return .methodCall none name (← visitExprs rules onBlock inner arguments) method
  | .binary operator left right type =>
    atNode rules depth (.binary operator left right type) fun inner => do
      let left ← visitExpr rules onBlock inner left
      let right ← visitExpr rules onBlock inner right
      return .binary operator left right type
  | .newClass type arguments =>
    atNode rules depth (.newClass type arguments) fun inner => do
      return .newClass type (← visitExprs rules onBlock inner arguments)
  | .newArray element elements =>
    atNode rules depth (.newArray element elements) fun inner => do
      return .newArray element (← visitExprs rules onBlock inner elements)
  | .classLiteral fqn => atNode rules depth (.classLiteral fqn) fun _ => return .classLiteral fqn
  | .lambda parameters body =>
    atNode rules depth (.lambda parameters body) fun inner => do
      return .lambda parameters (← onBlock inner body)
  | .parens expr =>
    atNode rules depth (.parens expr) fun inner => do
      return .parens (← visitExpr rules onBlock inner expr)

/-- The pass on a list of expressions. -/
def visitExprs (rules : List Rule) (onBlock : OnBlock) (depth : Nat) :
    List Expr → PassM (List Expr)
  | [] => return []
  | expr :: rest => do
      let expr ← visitExpr rules onBlock depth expr
      let rest ← visitExprs rules onBlock depth rest
      return expr :: rest

end

/-- The pass on a handler. -/
def visitCatch (onBlock : OnBlock) (depth : Nat) : CatchClause → PassM CatchClause
  | .handler parameter type body => do return .handler parameter type (← onBlock depth body)

/-- The pass on a statement. -/
def visitStatement (rules : List Rule) (onBlock : OnBlock) (depth : Nat) :
    Statement → PassM Statement
  | .expression value => do return .expression (← visitExpr rules onBlock depth value)
  | .declaration name type initial => do
      return .declaration name type (← initial.mapM (visitExpr rules onBlock depth))
  | .block body => do return .block (← onBlock depth body)
  | .conditional condition thenBranch elseBranch => do
      let condition ← visitExpr rules onBlock depth condition
      let thenBranch ← onBlock depth thenBranch
      let elseBranch ← elseBranch.mapM (onBlock depth)
      return .conditional condition thenBranch elseBranch
  | .guarded body catches finallyBlock => do
      let body ← onBlock depth body
      let catches ← catches.mapM (visitCatch onBlock depth)
      let finallyBlock ← finallyBlock.mapM (onBlock depth)
      return .guarded body catches finallyBlock
  | .returning value => do return .returning (← value.mapM (visitExpr rules onBlock depth))

/-- The pass on a block. All blocks of what the rules make of it are visited, up to `height` of them
inside each other, itself included; the pass fails if there are more. -/
def visitBlock (rules : List Rule) : (height : Nat) → OnBlock
  | 0 => fun _ _ => throw .nestedTooDeep
  | height + 1 => fun depth block => do
      let block ← rules.foldlM (offerBlock depth) block
      block.mapM (visitStatement rules (visitBlock rules height) depth)

/-- The pass on the body of a method. Rules may nest its blocks deeper than they are, by `slack`. -/
def visitMethod (rules : List Rule) (slack depth : Nat) (method : MethodDecl) :
    PassM MethodDecl := do
  let height := Statement.blockDepthList method.body + 1 + slack
  return { method with body := ← visitBlock rules height depth method.body }

/-- The pass on the initializer of a field. -/
def visitInitializer (rules : List Rule) (slack depth : Nat) (field : FieldDecl) :
    PassM FieldDecl := do
  let visit (initial : Expr) : PassM Expr :=
    visitExpr rules (visitBlock rules (initial.blockDepth + slack)) depth initial
  return { field with initializer := ← field.initializer.mapM visit }

/-- The pass on field declarations. Each is offered in the class as it is by then; `done` are the
fields before it. -/
def visitFields (rules : List Rule) (around : List FieldDecl → ClassDecl)
    (done : List FieldDecl) : List FieldDecl → PassM (List FieldDecl)
  | [] => return done
  | field :: rest => do
      let field ← rules.foldlM (offerField fun field => around (done ++ field :: rest)) field
      visitFields rules around (done ++ [field]) rest

/-- The requested fields in front of the others, apart from those whose name is taken. -/
def declareRequested (requests : List FieldRequest) (fields : List FieldDecl) : List FieldDecl :=
  requests.foldr (fun request declared =>
    if declared.any (·.name == request.fieldName) then declared
    else request.declaration :: declared) fields

mutual

/-- The pass on a class: its fields, their initializers, its methods and then its nested classes. -/
def visitClass (rules : List Rule) (slack depth : Nat) (scope : Scope) :
    ClassDecl → PassM ClassDecl
  | .decl header fields methods nested => do
      modify (·.enter scope)
      let around (fields : List FieldDecl) := ClassDecl.decl header fields methods nested
      let fields ← visitFields rules around [] fields
      modify (·.seeFields fields)
      let fields ← fields.mapM (visitInitializer rules slack depth)
      let methods ← methods.mapM (visitMethod rules slack depth)
      let progress ← get
      let nested ← visitNested rules slack (depth - 1) progress.scope nested
      return .decl header (declareRequested progress.requests fields) methods nested

/-- The pass on the classes nested in the class of a scope. -/
def visitNested (rules : List Rule) (slack depth : Nat) (scope : Scope) :
    List ClassDecl → PassM (List ClassDecl)
  | [] => return []
  | first :: rest => do
      let transformed ← visitClass rules slack depth (scope.nested first) first
      let others ← visitNested rules slack depth scope rest
      return transformed :: others

end

/-- The pass on a class at the top level of a file. -/
def visitTopLevel (rules : List Rule) (slack : Nat) (sourceFile : Option String)
    (declared : ClassDecl) : PassM ClassDecl :=
  visitClass rules slack (maxDepth - 1) (.ofClass declared sourceFile) declared

/-- The unit with imports added and dropped. -/
def settleImports (unit : CompilationUnit) (effects : Effects) : CompilationUnit :=
  effects.removeImports.foldl CompilationUnit.dropImport
    (effects.addImports.foldl CompilationUnit.addImport unit)

/-- The pass on a unit: all classes, and then the imports that the replacements need. -/
def visitUnit (rules : List Rule) (slack : Nat) (unit : CompilationUnit) :
    PassM CompilationUnit := do
  let classes ← unit.classes.mapM (visitTopLevel rules slack unit.sourcePath)
  return settleImports { unit with classes } (← get).effects

end Pass

end LogCalls
