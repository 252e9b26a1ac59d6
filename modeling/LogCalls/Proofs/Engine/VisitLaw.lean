import LogCalls.Engine.Pass

/-! # Laws of visits

A pass visits a node by visiting its parts, one after the other, and by offering what comes out to
the rules. A property of visits that survives this composition holds of the visit of every
expression, statement, block and field as soon as it holds of the single offers. Stating that once
leaves the later proofs with the offers alone. It is stated for two lists of rules side by side, which
are the same list where a property is about one. -/

namespace LogCalls.Pass

/-! ## Two lists of rules -/

/-- A property of a node and two actions that visit it is kept when visits are put together. -/
structure Joint (Visits : {α : Type} → α → PassM α → PassM α → Prop) : Prop where
  /-- To leave a node as it is counts as a visit. -/
  pure {α : Type} (node : α) : Visits node (pure node) (pure node)
  /-- A visit of a part, followed by a visit of the whole with the visited part in its place. -/
  bind {α β : Type} (whole : α → β) {part : α} {visit visit' : PassM α} {next next' : α → PassM β} :
    Visits part visit visit' → (∀ visited, Visits (whole visited) (next visited) (next' visited)) →
      Visits (whole part) (visit >>= next) (visit' >>= next')

/-- A property of visits that can be put together and that the offers to all rules have. -/
structure JointLaw (rules others : List Rule)
    (Visits : {α : Type} → α → PassM α → PassM α → Prop) : Prop extends Joint Visits where
  offersExpr (depth : Nat) (expr : Expr) :
    Visits expr (rules.foldlM (offerExpr depth) expr) (others.foldlM (offerExpr depth) expr)
  offersBlock (depth : Nat) (block : List Statement) :
    Visits block (rules.foldlM (offerBlock depth) block) (others.foldlM (offerBlock depth) block)
  offersField (around : FieldDecl → ClassDecl) (field : FieldDecl) :
    Visits field (rules.foldlM (offerField around) field) (others.foldlM (offerField around) field)

/-- The property is not lost where the first visit gives up on a block, whatever the second does. -/
def GivesUp (Visits : {α : Type} → α → PassM α → PassM α → Prop) : Prop :=
  ∀ (block : List Statement) (visit : PassM (List Statement)),
    Visits block (throw .nestedTooDeep) visit

section Joint

variable {rules others : List Rule} {slack more reach : Nat}
  {Visits : {α : Type} → α → PassM α → PassM α → Prop}

namespace Joint

variable {α β : Type}

/-- A visit of a part that is then put back into the whole. -/
theorem map (law : Joint Visits) (whole : α → β) {part : α} {visit visit' : PassM α}
    (visited : Visits part visit visit') :
    Visits (whole part) (visit >>= fun part => Pure.pure (whole part))
      (visit' >>= fun part => Pure.pure (whole part)) :=
  law.bind whole visited fun part => law.pure (whole part)

/-- Visits of all elements are a visit of the list. -/
theorem mapList (law : Joint Visits) (visit visit' : α → PassM α) :
    ∀ nodes : List α, (∀ node ∈ nodes, Visits node (visit node) (visit' node)) →
      Visits nodes (nodes.mapM visit) (nodes.mapM visit')
  | [], _ => by
    rw [List.mapM_nil, List.mapM_nil]
    exact law.pure []
  | node :: rest, each => by
    rw [List.mapM_cons, List.mapM_cons]
    have visitRest := law.mapList visit visit' rest fun other member =>
      each other (List.mem_cons_of_mem node member)
    refine law.bind (· :: rest) (each node List.mem_cons_self) fun visited => ?_
    exact law.map (visited :: ·) visitRest

/-- A visit of what an option holds is a visit of the option. -/
theorem mapOption (law : Joint Visits) (visit visit' : α → PassM α) :
    ∀ node : Option α, (∀ inner, node = some inner → Visits inner (visit inner) (visit' inner)) →
      Visits node (node.mapM visit) (node.mapM visit')
  | none, _ => law.pure none
  | some inner, each => law.map some (each inner rfl)

end Joint

namespace JointLaw

/-- A node that is rebuilt from visited parts and then offered to all rules is visited. -/
theorem atNode (law : JointLaw rules others Visits) (depth : Nat) {node : Expr}
    {rebuild rebuild' : Nat → PassM Expr}
    (rebuilt : ∀ inner, Visits node (rebuild inner) (rebuild' inner)) :
    Visits node (atNode rules depth node rebuild) (atNode others depth node rebuild') := by
  cases depth with
  | zero => exact law.pure node
  | succ inner => exact law.bind id (rebuilt inner) (law.offersExpr _)

mutual

/-- The law holds of every expression if it holds of the blocks inside. -/
theorem visitExpr (law : JointLaw rules others Visits) {onBlock onBlock' : OnBlock}
    (blocks : ∀ depth block, Statement.blockDepthList block < reach →
      Visits block (onBlock depth block) (onBlock' depth block)) (depth : Nat) :
    ∀ expr : Expr, expr.blockDepth ≤ reach →
      Visits expr (visitExpr rules onBlock depth expr) (visitExpr others onBlock' depth expr)
  | .literal value, _ => by
    rw [Pass.visitExpr, Pass.visitExpr]
    exact law.atNode depth fun _ => law.pure _
  | .identifier name type, _ => by
    rw [Pass.visitExpr, Pass.visitExpr]
    exact law.atNode depth fun _ => law.pure _
  | .typeRef fqn, _ => by
    rw [Pass.visitExpr, Pass.visitExpr]
    exact law.atNode depth fun _ => law.pure _
  | .fieldAccess target name type, within => by
    rw [Expr.blockDepth] at within
    rw [Pass.visitExpr, Pass.visitExpr]
    refine law.atNode depth fun inner => ?_
    exact law.map (Expr.fieldAccess · name type) (law.visitExpr blocks inner target within)
  | .methodCall (some select) name arguments method, within => by
    rw [Expr.blockDepth] at within
    obtain ⟨onSelect, onArguments⟩ := Nat.max_le.mp within
    rw [Pass.visitExpr, Pass.visitExpr]
    refine law.atNode depth fun inner => ?_
    refine law.bind (fun select => Expr.methodCall (some select) name arguments method)
      (law.visitExpr blocks inner select onSelect) fun select => ?_
    exact law.map (Expr.methodCall (some select) name · method)
      (law.visitExprs blocks inner arguments onArguments)
  | .methodCall none name arguments method, within => by
    rw [Expr.blockDepth] at within
    rw [Pass.visitExpr, Pass.visitExpr]
    refine law.atNode depth fun inner => ?_
    exact law.map (Expr.methodCall none name · method)
      (law.visitExprs blocks inner arguments within)
  | .binary operator left right type, within => by
    rw [Expr.blockDepth] at within
    obtain ⟨onLeft, onRight⟩ := Nat.max_le.mp within
    rw [Pass.visitExpr, Pass.visitExpr]
    refine law.atNode depth fun inner => ?_
    refine law.bind (Expr.binary operator · right type)
      (law.visitExpr blocks inner left onLeft) fun left => ?_
    exact law.map (Expr.binary operator left · type) (law.visitExpr blocks inner right onRight)
  | .newClass type arguments, within => by
    rw [Expr.blockDepth] at within
    rw [Pass.visitExpr, Pass.visitExpr]
    refine law.atNode depth fun inner => ?_
    exact law.map (Expr.newClass type) (law.visitExprs blocks inner arguments within)
  | .newArray element elements, within => by
    rw [Expr.blockDepth] at within
    rw [Pass.visitExpr, Pass.visitExpr]
    refine law.atNode depth fun inner => ?_
    exact law.map (Expr.newArray element) (law.visitExprs blocks inner elements within)
  | .classLiteral fqn, _ => by
    rw [Pass.visitExpr, Pass.visitExpr]
    exact law.atNode depth fun _ => law.pure _
  | .lambda parameters body, within => by
    rw [Expr.blockDepth] at within
    rw [Pass.visitExpr, Pass.visitExpr]
    refine law.atNode depth fun inner => ?_
    exact law.map (Expr.lambda parameters) (blocks inner body within)
  | .parens expr, within => by
    rw [Expr.blockDepth] at within
    rw [Pass.visitExpr, Pass.visitExpr]
    refine law.atNode depth fun inner => ?_
    exact law.map Expr.parens (law.visitExpr blocks inner expr within)

/-- The law holds of every list of expressions if it holds of the blocks inside. -/
theorem visitExprs (law : JointLaw rules others Visits) {onBlock onBlock' : OnBlock}
    (blocks : ∀ depth block, Statement.blockDepthList block < reach →
      Visits block (onBlock depth block) (onBlock' depth block)) (depth : Nat) :
    ∀ exprs : List Expr, Expr.blockDepthList exprs ≤ reach →
      Visits exprs (visitExprs rules onBlock depth exprs) (visitExprs others onBlock' depth exprs)
  | [], _ => by
    rw [Pass.visitExprs, Pass.visitExprs]
    exact law.pure []
  | expr :: rest, within => by
    rw [Expr.blockDepthList] at within
    obtain ⟨onFirst, onRest⟩ := Nat.max_le.mp within
    rw [Pass.visitExprs, Pass.visitExprs]
    refine law.bind (· :: rest) (law.visitExpr blocks depth expr onFirst) fun expr => ?_
    exact law.map (expr :: ·) (law.visitExprs blocks depth rest onRest)

end

/-! ### Statements and blocks -/

/-- The law holds of all handlers if it holds of their bodies. -/
theorem visitCatches (law : JointLaw rules others Visits) {onBlock onBlock' : OnBlock}
    (blocks : ∀ depth block, Statement.blockDepthList block < reach →
      Visits block (onBlock depth block) (onBlock' depth block)) (depth : Nat) :
    ∀ catches : List CatchClause, CatchClause.blockDepthList catches ≤ reach →
      Visits catches (catches.mapM (visitCatch onBlock depth))
        (catches.mapM (visitCatch onBlock' depth))
  | [], _ => by
    rw [List.mapM_nil, List.mapM_nil]
    exact law.pure []
  | .handler parameter type body :: rest, within => by
    rw [CatchClause.blockDepthList] at within
    obtain ⟨onBody, onRest⟩ := Nat.max_le.mp within
    rw [List.mapM_cons, List.mapM_cons]
    refine law.bind (· :: rest) (law.map (CatchClause.handler parameter type)
      (blocks depth body onBody)) fun clause => ?_
    exact law.map (clause :: ·) (law.visitCatches blocks depth rest onRest)

/-- The law holds of every statement if it holds of the blocks inside. -/
theorem visitStatement (law : JointLaw rules others Visits) {onBlock onBlock' : OnBlock}
    (blocks : ∀ depth block, Statement.blockDepthList block < reach →
      Visits block (onBlock depth block) (onBlock' depth block)) (depth : Nat)
    (statement : Statement) (within : statement.blockDepth ≤ reach) :
    Visits statement (visitStatement rules onBlock depth statement)
      (visitStatement others onBlock' depth statement) := by
  have exprs := law.visitExpr blocks depth
  cases statement with
  | expression value =>
    rw [Statement.blockDepth] at within
    exact law.map Statement.expression (exprs value within)
  | declaration name type initial =>
    refine law.map (Statement.declaration name type) (law.mapOption _ _ initial ?_)
    rintro expr rfl
    rw [Statement.blockDepth] at within
    exact exprs expr within
  | block body =>
    rw [Statement.blockDepth] at within
    exact law.map Statement.block (blocks depth body within)
  | conditional condition thenBranch elseBranch =>
    have parts : condition.blockDepth ≤ reach ∧ Statement.blockDepthList thenBranch < reach ∧
        ∀ block, elseBranch = some block → Statement.blockDepthList block < reach := by
      cases elseBranch <;> grind [Statement.blockDepth]
    obtain ⟨onCondition, onThen, onElse⟩ := parts
    refine law.bind (Statement.conditional · thenBranch elseBranch) (exprs condition onCondition)
      fun condition => ?_
    refine law.bind (Statement.conditional condition · elseBranch)
      (blocks depth thenBranch onThen) fun thenBranch => ?_
    exact law.map (Statement.conditional condition thenBranch)
      (law.mapOption _ _ elseBranch fun block held => blocks depth block (onElse block held))
  | guarded body catches finallyBlock =>
    have parts : Statement.blockDepthList body < reach ∧
        CatchClause.blockDepthList catches ≤ reach ∧
        ∀ block, finallyBlock = some block → Statement.blockDepthList block < reach := by
      cases finallyBlock <;> grind [Statement.blockDepth]
    obtain ⟨onBody, onCatches, onFinally⟩ := parts
    refine law.bind (Statement.guarded · catches finallyBlock) (blocks depth body onBody)
      fun body => ?_
    refine law.bind (Statement.guarded body · finallyBlock)
      (law.visitCatches blocks depth catches onCatches) fun catches => ?_
    exact law.map (Statement.guarded body catches)
      (law.mapOption _ _ finallyBlock fun block held => blocks depth block (onFinally block held))
  | returning value =>
    refine law.map Statement.returning (law.mapOption _ _ value ?_)
    rintro expr rfl
    rw [Statement.blockDepth] at within
    exact exprs expr within

/-- The law holds of every block if it holds where a visit gives up, and if the second visit may go
deeper than the first. -/
theorem visitBlock (law : JointLaw rules others Visits)
    (givesUp : GivesUp Visits) {height height' : Nat}
    (deeper : height ≤ height') (depth : Nat) (block : List Statement) :
    Visits block (visitBlock rules height depth block) (visitBlock others height' depth block) := by
  induction height generalizing height' depth block with
  | zero => exact givesUp block _
  | succ height inner =>
    obtain ⟨height', rfl⟩ := Nat.exists_eq_add_of_lt deeper
    refine law.bind id (law.offersBlock depth block) fun block => ?_
    refine law.mapList _ _ block fun statement _ => ?_
    exact law.visitStatement (fun depth block _ => inner (Nat.le_add_right _ _) depth block) depth
      statement (Nat.le_refl _)

/-! ### Members of a class -/

/-- The law holds of every method. -/
theorem visitMethod (law : JointLaw rules others Visits)
    (givesUp : GivesUp Visits) (room : slack ≤ more)
    (depth : Nat) (method : MethodDecl) :
    Visits method (visitMethod rules slack depth method) (visitMethod others more depth method) :=
  law.map (fun body => { method with body })
    (law.visitBlock givesUp (Nat.add_le_add_left room _) depth method.body)

/-- The law holds of the initializer of every field. -/
theorem visitInitializer (law : JointLaw rules others Visits)
    (givesUp : GivesUp Visits) (room : slack ≤ more)
    (depth : Nat) (field : FieldDecl) :
    Visits field (visitInitializer rules slack depth field)
      (visitInitializer others more depth field) :=
  law.map (fun initializer => { field with initializer })
    (law.mapOption _ _ field.initializer fun initial _ =>
      law.visitExpr (fun depth block _ =>
        law.visitBlock givesUp (Nat.add_le_add_left room _) depth block) depth initial
        (Nat.le_refl _))

/-- The law holds of the declarations of all fields together. -/
theorem visitFields (law : JointLaw rules others Visits) (around : List FieldDecl → ClassDecl) :
    ∀ done fields : List FieldDecl,
      Visits (done ++ fields) (visitFields rules around done fields)
        (visitFields others around done fields)
  | done, [] => by
    rw [List.append_nil]
    exact law.pure done
  | done, field :: rest => by
    refine law.bind (fun field => done ++ field :: rest) (law.offersField _ field) fun field => ?_
    rw [List.append_cons]
    exact law.visitFields around (done ++ [field]) rest

end JointLaw

end Joint

/-! ## One list of rules -/

/-- A property of a node and an action that visits it is kept when visits are put together. -/
structure Compositional (Visits : {α : Type} → α → PassM α → Prop) : Prop where
  /-- To leave a node as it is counts as a visit. -/
  pure {α : Type} (node : α) : Visits node (pure node)
  /-- A visit of a part, followed by a visit of the whole with the visited part in its place. -/
  bind {α β : Type} (whole : α → β) {part : α} {visit : PassM α} {next : α → PassM β} :
    Visits part visit → (∀ visited, Visits (whole visited) (next visited)) →
      Visits (whole part) (visit >>= next)

/-- A property of visits that can be put together, that every offer to the rules has, and that is not
lost where a visit gives up. -/
structure VisitLaw (rules : List Rule) (Visits : {α : Type} → α → PassM α → Prop) : Prop
    extends Compositional Visits where
  /-- To give up on a block. -/
  givesUp (block : List Statement) : Visits block (throw .nestedTooDeep)
  /-- The offer of an expression to a rule. -/
  offerExpr (depth : Nat) (rule : Rule) (expr : Expr) :
    rule ∈ rules → Visits expr (offerExpr depth expr rule)
  /-- The offer of a block to a rule. -/
  offerBlock (depth : Nat) (rule : Rule) (block : List Statement) :
    rule ∈ rules → Visits block (offerBlock depth block rule)
  /-- The offer of a field to a rule. -/
  offerField (rule : Rule) (around : FieldDecl → ClassDecl) (field : FieldDecl) :
    rule ∈ rules → Visits field (offerField around field rule)

variable {rules : List Rule} {slack : Nat} {Visits : {α : Type} → α → PassM α → Prop}

namespace Compositional

variable {α β : Type}

/-- A property of one visit, seen as a property of two. -/
theorem toJoint (law : Compositional Visits) : Joint fun node visit _ => Visits node visit where
  pure := law.pure
  bind whole := law.bind whole

/-- A visit of a part that is then put back into the whole. -/
theorem map (law : Compositional Visits) (whole : α → β) {part : α} {visit : PassM α}
    (visited : Visits part visit) :
    Visits (whole part) (visit >>= fun part => Pure.pure (whole part)) :=
  law.bind whole visited fun part => law.pure (whole part)

/-- Offers to one rule after the other are a visit if each of them is. -/
theorem foldOffers (law : Compositional Visits) (offer : α → Rule → PassM α) :
    ∀ (offered : List Rule) (node : α),
      (∀ rule ∈ offered, ∀ node, Visits node (offer node rule)) →
      Visits node (offered.foldlM offer node)
  | [], node, _ => law.pure node
  | rule :: rest, node, each => by
    rw [List.foldlM_cons]
    refine law.bind id (each rule List.mem_cons_self node) fun visited => ?_
    exact law.foldOffers offer rest visited fun other member =>
      each other (List.mem_cons_of_mem rule member)

/-- Visits of all elements are a visit of the list. -/
theorem mapList (law : Compositional Visits) (visit : α → PassM α) (nodes : List α)
    (each : ∀ node ∈ nodes, Visits node (visit node)) : Visits nodes (nodes.mapM visit) :=
  law.toJoint.mapList visit visit nodes each

end Compositional

namespace VisitLaw

theorem toJointLaw (law : VisitLaw rules Visits) :
    JointLaw rules rules fun node visit _ => Visits node visit where
  toJoint := law.toJoint
  offersExpr depth expr := law.foldOffers _ rules expr fun rule member expr =>
    law.offerExpr depth rule expr member
  offersBlock depth block := law.foldOffers _ rules block fun rule member block =>
    law.offerBlock depth rule block member
  offersField around field := law.foldOffers _ rules field fun rule member field =>
    law.offerField rule around field member

theorem visitMethod (law : VisitLaw rules Visits) (depth : Nat) (method : MethodDecl) :
    Visits method (visitMethod rules slack depth method) :=
  law.toJointLaw.visitMethod (fun block _ => law.givesUp block) (Nat.le_refl slack) depth method

theorem visitInitializer (law : VisitLaw rules Visits) (depth : Nat) (field : FieldDecl) :
    Visits field (visitInitializer rules slack depth field) :=
  law.toJointLaw.visitInitializer (fun block _ => law.givesUp block) (Nat.le_refl slack) depth field

theorem visitFields (law : VisitLaw rules Visits) (around : List FieldDecl → ClassDecl)
    (done fields : List FieldDecl) : Visits (done ++ fields) (visitFields rules around done fields) :=
  law.toJointLaw.visitFields around done fields

end VisitLaw

/-! ## Classes and units

A class that is visited is more than its visited members, since fields are declared in it. Where a property
looks at the actions only, that makes no difference. -/

/-- A property of actions that is kept when one follows another, and that all those have which the visit
of a class is put together from. -/
structure ClassLaw (rules : List Rule) (slack : Nat) (Holds : {α : Type} → PassM α → Prop) :
    Prop where
  pure {α : Type} (result : α) : Holds (pure result)
  bind {α β : Type} {action : PassM α} {next : α → PassM β} :
    Holds action → (∀ result, Holds (next result)) → Holds (action >>= next)
  visitFields (around : List FieldDecl → ClassDecl) (fields : List FieldDecl) :
    Holds (visitFields rules around [] fields)
  visitInitializer (depth : Nat) (field : FieldDecl) :
    Holds (visitInitializer rules slack depth field)
  visitMethod (depth : Nat) (method : MethodDecl) : Holds (visitMethod rules slack depth method)
  get : Holds (get : PassM Progress)
  enter (scope : Scope) : Holds (modify (·.enter scope) : PassM PUnit)
  seeFields (fields : List FieldDecl) : Holds (modify (·.seeFields fields) : PassM PUnit)

namespace ClassLaw

variable {Holds : {α : Type} → PassM α → Prop}

/-- Actions on all elements of a list. -/
theorem mapList (law : ClassLaw rules slack Holds) {α : Type} {visit : α → PassM α}
    (each : ∀ node, Holds (visit node)) (nodes : List α) : Holds (nodes.mapM visit) := by
  have visits : Compositional fun {_} _ visit => Holds visit := ⟨law.pure, fun _ => law.bind⟩
  exact visits.mapList visit nodes fun node _ => each node

mutual

/-- The law holds of every class. -/
theorem visitClass (law : ClassLaw rules slack Holds) (depth : Nat) (scope : Scope) :
    ∀ declared : ClassDecl, Holds (visitClass rules slack depth scope declared)
  | .decl header fields methods nested => by
    rw [Pass.visitClass]
    refine law.bind (law.enter scope) fun _ => ?_
    refine law.bind (law.visitFields _ fields) fun declared => ?_
    refine law.bind (law.seeFields declared) fun _ => ?_
    refine law.bind (law.mapList (law.visitInitializer depth) declared) fun initialized => ?_
    refine law.bind (law.mapList (law.visitMethod depth) methods) fun called => ?_
    refine law.bind law.get fun progress => ?_
    exact law.bind (law.visitNested (depth - 1) progress.scope nested) fun others => law.pure _

/-- The law holds of all nested classes. -/
theorem visitNested (law : ClassLaw rules slack Holds) (depth : Nat) (scope : Scope) :
    ∀ nested : List ClassDecl, Holds (visitNested rules slack depth scope nested)
  | [] => by
    rw [Pass.visitNested]
    exact law.pure []
  | first :: rest => by
    rw [Pass.visitNested]
    refine law.bind (law.visitClass depth _ first) fun visited => ?_
    exact law.bind (law.visitNested depth scope rest) fun others => law.pure (visited :: others)

end

/-- The law holds of every unit. -/
theorem visitUnit (law : ClassLaw rules slack Holds) (unit : CompilationUnit) :
    Holds (visitUnit rules slack unit) := by
  have topLevel (declared : ClassDecl) :
      Holds (visitTopLevel rules slack unit.sourcePath declared) := law.visitClass _ _ declared
  rw [Pass.visitUnit]
  refine law.bind (law.mapList topLevel unit.classes) fun classes => ?_
  exact law.bind law.get fun progress => law.pure _

end ClassLaw

/-- A property of actions that is kept when one follows another, and that all those have which a pass is
put together from. -/
structure ActionLaw (rules : List Rule) (Holds : {α : Type} → PassM α → Prop) : Prop where
  pure {α : Type} (result : α) : Holds (pure result)
  bind {α β : Type} {action : PassM α} {next : α → PassM β} :
    Holds action → (∀ result, Holds (next result)) → Holds (action >>= next)
  givesUp {α : Type} : Holds (throw .nestedTooDeep : PassM α)
  offerExpr (depth : Nat) (rule : Rule) (expr : Expr) :
    rule ∈ rules → Holds (offerExpr depth expr rule)
  offerBlock (depth : Nat) (rule : Rule) (block : List Statement) :
    rule ∈ rules → Holds (offerBlock depth block rule)
  offerField (rule : Rule) (around : FieldDecl → ClassDecl) (field : FieldDecl) :
    rule ∈ rules → Holds (offerField around field rule)
  get : Holds (get : PassM Progress)
  enter (scope : Scope) : Holds (modify (·.enter scope) : PassM PUnit)
  seeFields (fields : List FieldDecl) : Holds (modify (·.seeFields fields) : PassM PUnit)

namespace ActionLaw

variable {Holds : {α : Type} → PassM α → Prop}

/-- A property of actions, seen as a property of visits. -/
theorem toVisitLaw (law : ActionLaw rules Holds) : VisitLaw rules fun {_} _ visit => Holds visit where
  pure := law.pure
  bind _ := law.bind
  givesUp _ := law.givesUp
  offerExpr := law.offerExpr
  offerBlock := law.offerBlock
  offerField := law.offerField

/-- The law holds of every unit. -/
theorem visitUnit (law : ActionLaw rules Holds) (unit : CompilationUnit) :
    Holds (visitUnit rules slack unit) := by
  have classes : ClassLaw rules slack Holds := {
    pure := law.pure
    bind := law.bind
    visitFields := fun around => law.toVisitLaw.visitFields around []
    visitInitializer := law.toVisitLaw.visitInitializer
    visitMethod := law.toVisitLaw.visitMethod
    get := law.get
    enter := law.enter
    seeFields := law.seeFields }
  exact classes.visitUnit unit

end ActionLaw

end LogCalls.Pass
