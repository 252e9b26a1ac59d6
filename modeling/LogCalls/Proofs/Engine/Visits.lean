import LogCalls.Proofs.Engine.IdlePass
import Mathlib.Data.List.Forall2

/-! # What a visit makes of a node

A small logic for the parts of a pass. `Yields` says what an action returns and how many replacements
it has made for that. A visit rebuilds a node from visited parts and then offers it to the rules; a
relation between nodes and what becomes of them that goes along with these two steps holds of every
visit of an expression and of a block. -/

namespace LogCalls.Pass

variable {depth : Nat} {block : List Statement} {α β : Type} {sees : Progress → Prop} {slack : Nat}

/-! ## Actions -/

/-- From progress that satisfies `sees`, the action ends in such progress, and what it returns is as
`post` says for the number of replacements that it has made. -/
def Yields (sees : Progress → Prop) (post : Nat → α → Prop) (action : PassM α) : Prop :=
  ∀ progress result after, sees progress → action.run progress = .ok result after →
    sees after ∧ ∃ count, after.replacements = progress.replacements + count ∧ post count result

namespace Yields

/-- A result without a replacement. -/
theorem pure {post : Nat → α → Prop} {result : α} (holds : post 0 result) :
    Yields sees post (Pure.pure result) := by
  intro progress _ after seen run
  cases run
  exact ⟨seen, 0, rfl, holds⟩

/-- An action after another one counts on. -/
theorem bind {first : Nat → α → Prop} {post : Nat → β → Prop} {visit : PassM α} {next : α → PassM β}
    (visited : Yields sees first visit)
    (then_ : ∀ count result, first count result →
      Yields sees (fun more => post (count + more)) (next result)) :
    Yields sees post (visit >>= next) := by
  intro progress result after seen run
  obtain ⟨value, middle, runFirst, runNext⟩ := run_bind_eq_ok.mp run
  obtain ⟨seenMiddle, count, counted, holds⟩ := visited _ _ _ seen runFirst
  obtain ⟨seenAfter, more, countedMore, holdsMore⟩ := then_ count value holds _ _ _ seenMiddle runNext
  exact ⟨seenAfter, count + more, by omega, holdsMore⟩

/-- What is yielded may be weakened. -/
theorem imp {first post : Nat → α → Prop} {visit : PassM α} (visited : Yields sees first visit)
    (weaker : ∀ count result, first count result → post count result) : Yields sees post visit := by
  intro progress result after seen run
  obtain ⟨seenAfter, count, counted, holds⟩ := visited _ _ _ seen run
  exact ⟨seenAfter, count, counted, weaker count result holds⟩

/-- A visit of a part that is then put back into the whole. -/
theorem map {first : Nat → α → Prop} {post : Nat → β → Prop} {visit : PassM α} (whole : α → β)
    (visited : Yields sees first visit)
    (put : ∀ count result, first count result → post count (whole result)) :
    Yields sees post (visit >>= fun result => Pure.pure (whole result)) :=
  visited.bind fun count result holds => Yields.pure (put count result holds)

end Yields

/-! ## Lists and options -/

/-- The lists are related element by element, and the counts add up. -/
inductive Each (related : Nat → α → α → Prop) : Nat → List α → List α → Prop where
  | nil : Each related 0 [] []
  | cons {count more : Nat} {before after : α} {rest others : List α} :
      related count before after → Each related more rest others →
        Each related (count + more) (before :: rest) (after :: others)

/-- The options are related if they hold something. -/
inductive Held (related : Nat → α → α → Prop) : Nat → Option α → Option α → Prop where
  | none : Held related 0 none none
  | some {count : Nat} {before after : α} :
      related count before after → Held related count (some before) (some after)

/-- What holds of each item may be weaker. -/
theorem Each.imp {related weaker : Nat → α → α → Prop}
    (weaken : ∀ count before after, related count before after → weaker count before after)
    {count : Nat} {before after : List α} (each : Each related count before after) :
    Each weaker count before after := by
  induction each with
  | nil => exact .nil
  | cons holds _ ih => exact .cons (weaken _ _ _ holds) ih

/-- Lists whose elements are related one by one. -/
theorem Each.forall₂ {related : Nat → α → α → Prop} {weaker : α → α → Prop} {count : Nat}
    {before after : List α} (each : Each related count before after)
    (weaken : ∀ count before after, related count before after → weaker before after) :
    List.Forall₂ weaker before after := by
  induction each with
  | nil => exact .nil
  | cons holds _ ih => exact .cons (weaken _ _ _ holds) ih

/-- Visits of all elements relate the lists. -/
theorem Yields.mapList {related : Nat → α → α → Prop} {visit : α → PassM α} :
    ∀ nodes : List α, (∀ node ∈ nodes, Yields sees (related · node) (visit node)) →
      Yields sees (Each related · nodes) (nodes.mapM visit)
  | [], _ => by
    rw [List.mapM_nil]
    exact Yields.pure .nil
  | node :: rest, each => by
    rw [List.mapM_cons]
    refine (each node List.mem_cons_self).bind fun count visited holds => ?_
    have visitRest := Yields.mapList rest fun other member =>
      each other (List.mem_cons_of_mem node member)
    exact visitRest.map (visited :: ·) fun more others holdsRest => .cons holds holdsRest

/-- A visit of all elements visits each of them. -/
theorem forall₂_of_run_mapM {visit : α → PassM β} : ∀ {nodes : List α} {results : List β}
    {progress after : Progress}, (nodes.mapM visit).run progress = .ok results after →
      List.Forall₂ (fun node result => ∃ start stop, (visit node).run start = .ok result stop)
        nodes results
  | [], _, _, _, run => by
    rw [List.mapM_nil] at run
    cases run
    exact .nil
  | node :: rest, _, _, _, run => by
    rw [List.mapM_cons] at run
    obtain ⟨visited, middle, first, run⟩ := run_bind_eq_ok.mp run
    obtain ⟨others, stop, later, run⟩ := run_bind_eq_ok.mp run
    cases run
    exact .cons ⟨_, _, first⟩ (forall₂_of_run_mapM later)

/-- A visit of what an option holds relates the options. -/
theorem Yields.mapOption {related : Nat → α → α → Prop} {visit : α → PassM α} (node : Option α)
    (each : ∀ inner, node = some inner → Yields sees (related · inner) (visit inner)) :
    Yields sees (Held related · node) (node.mapM visit) := by
  cases node with
  | none => exact Yields.pure .none
  | some inner => exact (each inner rfl).map some fun count visited holds => .some holds

/-- Offers to one rule after the other relate a node to what becomes of it, for a relation that can be
put together. -/
theorem Yields.foldOffers {related : Nat → α → α → Prop} (refl : ∀ node, related 0 node node)
    (trans : ∀ {count more first second third}, related count first second →
      related more second third → related (count + more) first third)
    {offer : α → Rule → PassM α} :
    ∀ (offered : List Rule) (node : α),
      (∀ rule ∈ offered, ∀ node, Yields sees (related · node) (offer node rule)) →
      Yields sees (related · node) (offered.foldlM offer node)
  | [], node, _ => Yields.pure (refl node)
  | rule :: rest, node, each => by
    rw [List.foldlM_cons]
    refine (each rule List.mem_cons_self node).bind fun count visited holds => ?_
    have foldRest := Yields.foldOffers refl trans rest visited fun other member =>
      each other (List.mem_cons_of_mem rule member)
    exact foldRest.imp fun more result holdsRest => trans holds holdsRest

/-- An offer to one rule is an offer to the list of it. -/
theorem Yields.offerSingle {post : Nat → α → Prop} {offer : α → Rule → PassM α} {node : α} {rule : Rule}
    (offered : Yields sees post (offer node rule)) :
    Yields sees post ([rule].foldlM offer node) := by
  rw [List.foldlM_cons]
  exact offered.bind fun _ _ holds => Yields.pure holds

/-! ## Nodes -/

/-- The parts of an expression have been visited. -/
inductive Rebuilt (onExpr : Nat → Expr → Expr → Prop)
    (onBlock : Nat → List Statement → List Statement → Prop) : Nat → Expr → Expr → Prop where
  | literal (value : Literal) : Rebuilt onExpr onBlock 0 (.literal value) (.literal value)
  | identifier (name : String) (type : Option JavaType) :
      Rebuilt onExpr onBlock 0 (.identifier name type) (.identifier name type)
  | typeRef (fqn : String) : Rebuilt onExpr onBlock 0 (.typeRef fqn) (.typeRef fqn)
  | classLiteral (fqn : String) : Rebuilt onExpr onBlock 0 (.classLiteral fqn) (.classLiteral fqn)
  | fieldAccess {count : Nat} {target visited : Expr} (name : String) (type : Option JavaType) :
      onExpr count target visited →
        Rebuilt onExpr onBlock count (.fieldAccess target name type) (.fieldAccess visited name type)
  | methodCall {count more : Nat} {select visited : Option Expr} {arguments others : List Expr}
      (name : String) (method : Option ResolvedMethod) :
      Held onExpr count select visited → Each onExpr more arguments others →
        Rebuilt onExpr onBlock (count + more) (.methodCall select name arguments method)
          (.methodCall visited name others method)
  | binary {count more : Nat} {left right visitedLeft visitedRight : Expr}
      (operator : BinaryOperator) (type : Option JavaType) :
      onExpr count left visitedLeft → onExpr more right visitedRight →
        Rebuilt onExpr onBlock (count + more) (.binary operator left right type)
          (.binary operator visitedLeft visitedRight type)
  | newClass {count : Nat} {arguments others : List Expr} (type : JavaType) :
      Each onExpr count arguments others →
        Rebuilt onExpr onBlock count (.newClass type arguments) (.newClass type others)
  | newArray {count : Nat} {elements others : List Expr} (element : JavaType) :
      Each onExpr count elements others →
        Rebuilt onExpr onBlock count (.newArray element elements) (.newArray element others)
  | lambda {count : Nat} {body visited : List Statement} (parameters : List String) :
      onBlock count body visited →
        Rebuilt onExpr onBlock count (.lambda parameters body) (.lambda parameters visited)
  | parens {count : Nat} {inner visited : Expr} :
      onExpr count inner visited → Rebuilt onExpr onBlock count (.parens inner) (.parens visited)

/-- The body of a handler has been visited. -/
inductive RebuiltCatch (onBlock : Nat → List Statement → List Statement → Prop) :
    Nat → CatchClause → CatchClause → Prop where
  | handler {count : Nat} {body visited : List Statement} (parameter : String) (type : JavaType) :
      onBlock count body visited →
        RebuiltCatch onBlock count (.handler parameter type body) (.handler parameter type visited)

/-- The parts of a statement have been visited. -/
inductive RebuiltStatement (onExpr : Nat → Expr → Expr → Prop)
    (onBlock : Nat → List Statement → List Statement → Prop) :
    Nat → Statement → Statement → Prop where
  | expression {count : Nat} {value visited : Expr} :
      onExpr count value visited →
        RebuiltStatement onExpr onBlock count (.expression value) (.expression visited)
  | declaration {count : Nat} {initial visited : Option Expr} (name : String) (type : JavaType) :
      Held onExpr count initial visited →
        RebuiltStatement onExpr onBlock count (.declaration name type initial)
          (.declaration name type visited)
  | block {count : Nat} {body visited : List Statement} :
      onBlock count body visited → RebuiltStatement onExpr onBlock count (.block body) (.block visited)
  | conditional {first second third : Nat} {condition visitedCondition : Expr}
      {thenBranch visitedThen : List Statement} {elseBranch visitedElse : Option (List Statement)} :
      onExpr first condition visitedCondition → onBlock second thenBranch visitedThen →
        Held onBlock third elseBranch visitedElse →
        RebuiltStatement onExpr onBlock (first + (second + third))
          (.conditional condition thenBranch elseBranch)
          (.conditional visitedCondition visitedThen visitedElse)
  | guarded {first second third : Nat} {body visitedBody : List Statement}
      {catches visitedCatches : List CatchClause}
      {finallyBlock visitedFinally : Option (List Statement)} :
      onBlock first body visitedBody → Each (RebuiltCatch onBlock) second catches visitedCatches →
        Held onBlock third finallyBlock visitedFinally →
        RebuiltStatement onExpr onBlock (first + (second + third))
          (.guarded body catches finallyBlock) (.guarded visitedBody visitedCatches visitedFinally)
  | returning {count : Nat} {value visited : Option Expr} :
      Held onExpr count value visited →
        RebuiltStatement onExpr onBlock count (.returning value) (.returning visited)

section Weaken

variable {onExpr moreExpr : Nat → Expr → Expr → Prop}
  {onBlock moreBlock : Nat → List Statement → List Statement → Prop} {count : Nat}

/-- What an option holds may be weaker. -/
theorem Held.imp {related weaker : Nat → α → α → Prop}
    (weaken : ∀ count before after, related count before after → weaker count before after)
    {before after : Option α} (held : Held related count before after) :
    Held weaker count before after := by
  cases held with
  | none => exact .none
  | some holds => exact .some (weaken _ _ _ holds)

/-- So may what holds of the parts. -/
theorem Rebuilt.imp {before after : Expr} (rebuilt : Rebuilt onExpr onBlock count before after)
    (exprs : ∀ count before after, onExpr count before after → moreExpr count before after)
    (blocks : ∀ count before after, onBlock count before after → moreBlock count before after) :
    Rebuilt moreExpr moreBlock count before after := by
  cases rebuilt with
  | literal value => exact .literal value
  | identifier name type => exact .identifier name type
  | typeRef fqn => exact .typeRef fqn
  | classLiteral fqn => exact .classLiteral fqn
  | fieldAccess name type target => exact .fieldAccess name type (exprs _ _ _ target)
  | methodCall name method select arguments =>
    exact .methodCall name method (select.imp exprs) (arguments.imp exprs)
  | binary operator type left right =>
    exact .binary operator type (exprs _ _ _ left) (exprs _ _ _ right)
  | newClass type arguments => exact .newClass type (arguments.imp exprs)
  | newArray element elements => exact .newArray element (elements.imp exprs)
  | lambda parameters body => exact .lambda parameters (blocks _ _ _ body)
  | parens inner => exact .parens (exprs _ _ _ inner)

/-- The same for catch clauses. -/
theorem RebuiltCatch.imp {before after : CatchClause}
    (rebuilt : RebuiltCatch onBlock count before after)
    (blocks : ∀ count before after, onBlock count before after → moreBlock count before after) :
    RebuiltCatch moreBlock count before after := by
  cases rebuilt with
  | handler parameter type body => exact .handler parameter type (blocks _ _ _ body)

/-- The same for statements. -/
theorem RebuiltStatement.imp {before after : Statement}
    (rebuilt : RebuiltStatement onExpr onBlock count before after)
    (exprs : ∀ count before after, onExpr count before after → moreExpr count before after)
    (blocks : ∀ count before after, onBlock count before after → moreBlock count before after) :
    RebuiltStatement moreExpr moreBlock count before after := by
  cases rebuilt with
  | expression value => exact .expression (exprs _ _ _ value)
  | declaration name type initial => exact .declaration name type (initial.imp exprs)
  | block body => exact .block (blocks _ _ _ body)
  | conditional condition thenBranch elseBranch =>
    exact .conditional (exprs _ _ _ condition) (blocks _ _ _ thenBranch) (elseBranch.imp blocks)
  | guarded body catches finallyBlock =>
    exact .guarded (blocks _ _ _ body) (catches.imp fun _ _ _ rebuilt => rebuilt.imp blocks)
      (finallyBlock.imp blocks)
  | returning value => exact .returning (value.imp exprs)

end Weaken

/-! ## Relations that go along with visits -/

/-- A relation between nodes and what a pass makes of them. `onExpr` and `onBlock` are indexed by the
levels that a pass still goes down and by the number of replacements; `offered` and `offeredBlock`
relate a node to what the offers to all rules make of it. -/
structure VisitRelation (rules : List Rule) (sees : Progress → Prop)
    (onExpr : Nat → Nat → Expr → Expr → Prop)
    (onBlock : Nat → Nat → List Statement → List Statement → Prop)
    (offered : Nat → Expr → Expr → Prop)
    (offeredBlock : Nat → List Statement → List Statement → Prop) : Prop where
  /-- An expression below the greatest depth is left alone. -/
  unvisited (expr : Expr) : onExpr 0 0 expr expr
  /-- An expression is rebuilt and then offered. -/
  node {depth count more : Nat} {expr rebuilt visited : Expr} :
    Rebuilt (onExpr depth) (onBlock depth) count expr rebuilt →
      offered more rebuilt visited → onExpr (depth + 1) (count + more) expr visited
  /-- A block is offered, and then its statements are rebuilt. -/
  block {depth count more : Nat} {block replaced visited : List Statement} :
    offeredBlock count block replaced →
      Each (RebuiltStatement (onExpr depth) (onBlock depth)) more replaced visited →
      onBlock depth (count + more) block visited
  /-- Offers of expressions. -/
  offersExpr (depth : Nat) (expr : Expr) :
    Yields sees (offered · expr) (rules.foldlM (offerExpr depth) expr)
  /-- Offers of blocks. -/
  offersBlock (depth : Nat) (block : List Statement) :
    Yields sees (offeredBlock · block) (rules.foldlM (offerBlock depth) block)

namespace VisitRelation

variable {rules : List Rule} {onExpr : Nat → Nat → Expr → Expr → Prop}
  {onBlock : Nat → Nat → List Statement → List Statement → Prop}
  {offered : Nat → Expr → Expr → Prop}
  {offeredBlock : Nat → List Statement → List Statement → Prop}

/-- A node is rebuilt and then offered. -/
theorem atNode (law : VisitRelation rules sees onExpr onBlock offered offeredBlock)
    (depth : Nat) {expr : Expr} {rebuild : Nat → PassM Expr}
    (rebuilds : ∀ inner, Yields sees (Rebuilt (onExpr inner) (onBlock inner) · expr)
      (rebuild inner)) :
    Yields sees (onExpr depth · expr) (atNode rules depth expr rebuild) := by
  cases depth with
  | zero => exact Yields.pure (law.unvisited expr)
  | succ inner =>
    refine (rebuilds inner).bind fun count rebuilt holds => ?_
    exact (law.offersExpr _ rebuilt).imp fun more visited offered => law.node holds offered

mutual

/-- The relation holds of the visit of every expression if it holds of the blocks inside. -/
theorem visitExpr (law : VisitRelation rules sees onExpr onBlock offered offeredBlock)
    {visitBlock : OnBlock}
    (blocks : ∀ depth block, Yields sees (onBlock depth · block) (visitBlock depth block))
    (depth : Nat) : ∀ expr : Expr,
      Yields sees (onExpr depth · expr) (visitExpr rules visitBlock depth expr)
  | .literal value => by
    rw [Pass.visitExpr]
    exact law.atNode depth fun _ => Yields.pure (.literal value)
  | .identifier name type => by
    rw [Pass.visitExpr]
    exact law.atNode depth fun _ => Yields.pure (.identifier name type)
  | .typeRef fqn => by
    rw [Pass.visitExpr]
    exact law.atNode depth fun _ => Yields.pure (.typeRef fqn)
  | .fieldAccess target name type => by
    rw [Pass.visitExpr]
    refine law.atNode depth fun inner => ?_
    exact (law.visitExpr blocks inner target).map (Expr.fieldAccess · name type)
      fun count visited holds => .fieldAccess name type holds
  | .methodCall (some select) name arguments method => by
    rw [Pass.visitExpr]
    refine law.atNode depth fun inner => ?_
    refine (law.visitExpr blocks inner select).bind fun count visited holds => ?_
    exact (law.visitExprs blocks inner arguments).map (Expr.methodCall (some visited) name · method)
      fun more others each => .methodCall name method (.some holds) each
  | .methodCall none name arguments method => by
    rw [Pass.visitExpr]
    refine law.atNode depth fun inner => ?_
    refine (law.visitExprs blocks inner arguments).map (Expr.methodCall none name · method)
      fun count others each => ?_
    rw [← Nat.zero_add count]
    exact .methodCall name method .none each
  | .binary operator left right type => by
    rw [Pass.visitExpr]
    refine law.atNode depth fun inner => ?_
    refine (law.visitExpr blocks inner left).bind fun count visited holds => ?_
    exact (law.visitExpr blocks inner right).map (Expr.binary operator visited · type)
      fun more other also => .binary operator type holds also
  | .newClass type arguments => by
    rw [Pass.visitExpr]
    refine law.atNode depth fun inner => ?_
    exact (law.visitExprs blocks inner arguments).map (Expr.newClass type)
      fun count others each => .newClass type each
  | .newArray element elements => by
    rw [Pass.visitExpr]
    refine law.atNode depth fun inner => ?_
    exact (law.visitExprs blocks inner elements).map (Expr.newArray element)
      fun count others each => .newArray element each
  | .classLiteral fqn => by
    rw [Pass.visitExpr]
    exact law.atNode depth fun _ => Yields.pure (.classLiteral fqn)
  | .lambda parameters body => by
    rw [Pass.visitExpr]
    refine law.atNode depth fun inner => ?_
    exact (blocks inner body).map (Expr.lambda parameters)
      fun count visited holds => .lambda parameters holds
  | .parens expr => by
    rw [Pass.visitExpr]
    refine law.atNode depth fun inner => ?_
    exact (law.visitExpr blocks inner expr).map Expr.parens fun count visited holds => .parens holds

/-- The relation holds of the visits of all expressions in a list. -/
theorem visitExprs (law : VisitRelation rules sees onExpr onBlock offered offeredBlock)
    {visitBlock : OnBlock}
    (blocks : ∀ depth block, Yields sees (onBlock depth · block) (visitBlock depth block))
    (depth : Nat) : ∀ exprs : List Expr,
      Yields sees (Each (onExpr depth) · exprs) (visitExprs rules visitBlock depth exprs)
  | [] => by
    rw [Pass.visitExprs]
    exact Yields.pure .nil
  | expr :: rest => by
    rw [Pass.visitExprs]
    refine (law.visitExpr blocks depth expr).bind fun count visited holds => ?_
    exact (law.visitExprs blocks depth rest).map (visited :: ·)
      fun more others each => .cons holds each

end

/-- The parts of every statement are visited. -/
theorem visitStatement (law : VisitRelation rules sees onExpr onBlock offered offeredBlock)
    {visitBlock : OnBlock}
    (blocks : ∀ depth block, Yields sees (onBlock depth · block) (visitBlock depth block))
    (depth : Nat) (statement : Statement) :
    Yields sees (RebuiltStatement (onExpr depth) (onBlock depth) · statement)
      (visitStatement rules visitBlock depth statement) := by
  have exprs (expr : Expr) :
      Yields sees (onExpr depth · expr) (Pass.visitExpr rules visitBlock depth expr) :=
    law.visitExpr blocks depth expr
  cases statement with
  | expression value =>
    exact (exprs value).map Statement.expression fun count visited holds => .expression holds
  | declaration name type initial =>
    exact (Yields.mapOption initial fun expr _ => exprs expr).map (Statement.declaration name type)
      fun count visited held => .declaration name type held
  | block body =>
    exact (blocks depth body).map Statement.block fun count visited holds => .block holds
  | conditional condition thenBranch elseBranch =>
    refine (exprs condition).bind fun first visitedCondition onCondition => ?_
    refine (blocks depth thenBranch).bind fun second visitedThen onThen => ?_
    exact (Yields.mapOption elseBranch fun block _ => blocks depth block).map
      (Statement.conditional visitedCondition visitedThen)
      fun third visitedElse onElse => .conditional onCondition onThen onElse
  | guarded body catches finallyBlock =>
    have handlers (clause : CatchClause) :
        Yields sees (RebuiltCatch (onBlock depth) · clause)
          (visitCatch visitBlock depth clause) := by
      cases clause with
      | handler parameter type body =>
        exact (blocks depth body).map (CatchClause.handler parameter type)
          fun count visited holds => .handler parameter type holds
    refine (blocks depth body).bind fun first visitedBody onBody => ?_
    refine (Yields.mapList catches fun clause _ => handlers clause).bind
      fun second visitedCatches onCatches => ?_
    exact (Yields.mapOption finallyBlock fun block _ => blocks depth block).map
      (Statement.guarded visitedBody visitedCatches)
      fun third visitedFinally onFinally => .guarded onBody onCatches onFinally
  | returning value =>
    exact (Yields.mapOption value fun expr _ => exprs expr).map Statement.returning
      fun count visited held => .returning held

/-- The relation holds of the visit of every block. -/
theorem visitBlock (law : VisitRelation rules sees onExpr onBlock offered offeredBlock)
    (height : Nat) : ∀ (depth : Nat) (block : List Statement),
      Yields sees (onBlock depth · block) (visitBlock rules height depth block) := by
  induction height with
  | zero => exact fun _ _ _ _ _ _ run => by cases run
  | succ height inner =>
    intro depth block
    refine (law.offersBlock depth block).bind fun count replaced holds => ?_
    refine (Yields.mapList replaced fun statement _ =>
      law.visitStatement inner depth statement).imp fun more visited each => ?_
    exact law.block holds each

/-- A method keeps everything but its body. -/
theorem visitMethod (law : VisitRelation rules sees onExpr onBlock offered offeredBlock)
    (depth : Nat) (method : MethodDecl) :
    Yields sees (fun count visited => ∃ body, visited = { method with body } ∧
      onBlock depth count method.body body)
      (visitMethod rules slack depth method) :=
  (law.visitBlock _ depth method.body).map (fun body => { method with body })
    fun _ body holds => ⟨body, rfl, holds⟩

/-- A field keeps everything but its initializer. -/
theorem visitInitializer (law : VisitRelation rules sees onExpr onBlock offered offeredBlock)
    (depth : Nat) (field : FieldDecl) :
    Yields sees (fun count visited => ∃ initializer, visited = { field with initializer } ∧
      Held (onExpr depth) count
        field.initializer initializer)
      (visitInitializer rules slack depth field) :=
  (Yields.mapOption field.initializer fun initial _ =>
      law.visitExpr (law.visitBlock _) depth initial).map
    (fun initializer => { field with initializer }) fun _ initializer held => ⟨initializer, rfl, held⟩

end VisitRelation

/-! ## Offers -/

section Settled

variable {ρ : Type} [DecidableEq α] {node visited : α} {rule : Rule} {made : ρ → α}
  {declined failed : Progress → Progress} {replaced : ρ → Progress → Progress}
  {failure : String → Error} {answer : Offer ρ} {progress after : Progress}

/-- An offer that is settled leaves the node alone and does nothing but count, or it puts the
replacement in place. -/
theorem settle_eq_ok (counts : ∀ start, (declined start).uncounted = start.uncounted)
    (settled : settle rule node made declined replaced failure failed answer progress =
      .ok visited after) :
    (visited = node ∧ after.uncounted = progress.uncounted) ∨
      ∃ replacement, answer = .ok (some replacement) ∧ made replacement ≠ node ∧
        visited = made replacement ∧ after = replaced replacement progress := by
  unfold settle at settled
  split at settled
  · cases settled
  · cases settled
    exact .inl ⟨rfl, counts progress⟩
  · rename_i replacement
    split at settled
    · cases settled
      exact .inl ⟨rfl, rfl⟩
    · rename_i changed
      cases settled
      exact .inr ⟨replacement, rfl, changed, rfl, rfl⟩

/-- What a settled offer of a node returns is read off the answer. -/
theorem settle_returns
    (settled : settle rule node made declined replaced failure failed answer progress =
      .ok visited after) :
    ∃ reply, answer = .ok reply ∧ visited = (reply.map made).getD node := by
  unfold settle at settled
  split at settled
  · cases settled
  · cases settled
    exact ⟨none, rfl, rfl⟩
  · rename_i replacement
    split at settled
    · rename_i same
      cases settled
      exact ⟨some replacement, rfl, same.symm⟩
    · cases settled
      exact ⟨some replacement, rfl, rfl⟩

/-- An offer is settled with success if the rule does not fail. -/
theorem exists_settle_eq_ok (answers : ∃ reply, answer = .ok reply) :
    ∃ visited after,
      settle rule node made declined replaced failure failed answer progress = .ok visited after := by
  obtain ⟨reply, rfl⟩ := answers
  cases reply with
  | none => exact ⟨_, _, rfl⟩
  | some replacement =>
    rw [settle]
    split <;> exact ⟨_, _, rfl⟩

end Settled

/-- The pass stands in a class of such a name, which has asked for such fields only. -/
def StandsIn (owner : String → Prop) (asked : FieldRequest → Prop) (progress : Progress) : Prop :=
  owner progress.scope.current.fqn ∧ ∀ request ∈ progress.requests, asked request

namespace StandsIn

variable {owner : String → Prop} {asked : FieldRequest → Prop} {progress after : Progress}

/-- It does not matter what has been counted. -/
theorem of_uncounted_eq (same : progress.uncounted = after.uncounted)
    (sees : StandsIn owner asked progress) : StandsIn owner asked after := by
  rw [StandsIn, ← Progress.scope_eq_of_uncounted_eq same, ← Progress.requests_eq_of_uncounted_eq same]
  exact sees

/-- A replacement may ask for another such field. -/
theorem absorb {rule : Rule} {effects : Effects} (sees : StandsIn owner asked progress)
    (asks : ∀ request, effects.field = some request → asked request) :
    StandsIn owner asked ((progress.countReplacement rule).absorb effects) := by
  obtain ⟨same, requests⟩ := (progress.countReplacement rule).requests_absorb effects
  refine ⟨?_, fun other member => (requests other member).elim (sees.2 other) (asks other)⟩
  rw [same]
  exact sees.1

end StandsIn

/-- The offer of an expression relates it to itself or to its replacement. -/
theorem yields_offerExpr {post : Nat → Expr → Prop} {expr : Expr} {rule : Rule}
    (look : ∀ progress after, progress.uncounted = after.uncounted → sees progress → sees after)
    (kept : post 0 expr)
    (replaced : ∀ progress replacement, sees progress →
      rule.applies expr (progress.scope.goDown depth) = true →
      rule.onExpr expr (progress.scope.goDown depth) = .ok (some replacement) →
      replacement.expr ≠ expr →
        sees ((progress.countReplacement rule).absorb replacement.effects) ∧
          post 1 replacement.expr) :
    Yields sees post (offerExpr depth expr rule) := by
  intro progress visited after seen run
  rw [run_offerExpr] at run
  have counts (start : Progress) :
      ((if rule.applies expr (progress.scope.goDown depth) then
        (·.count rule RuleStatistics.applied) else id) start).uncounted = start.uncounted := by
    split <;> rfl
  obtain ⟨rfl, same⟩ | ⟨replacement, answer, changed, rfl, rfl⟩ := settle_eq_ok counts run
  · exact ⟨look _ _ same.symm seen, 0, Progress.replacements_eq_of_uncounted_eq same, kept⟩
  · have applies : rule.applies expr (progress.scope.goDown depth) = true := by
      by_cases applies : rule.applies expr (progress.scope.goDown depth) = true
      · exact applies
      · rw [if_neg applies] at answer
        cases answer
    rw [if_pos applies] at answer
    obtain ⟨seenAfter, holds⟩ := replaced progress replacement seen applies answer changed
    exact ⟨seenAfter, 1, by simp, holds⟩

/-- The offer of a block relates it to itself or to its replacement. -/
theorem yields_offerBlock {post : Nat → List Statement → Prop} {rule : Rule}
    (look : ∀ progress after, progress.uncounted = after.uncounted → sees progress → sees after)
    (kept : post 0 block)
    (replaced : ∀ progress replacement, sees progress →
      rule.onBlock block (progress.scope.goDown depth) = .ok (some replacement) →
        sees ((progress.countReplacement rule).absorb replacement.effects) ∧
          post 1 replacement.statements) :
    Yields sees post (offerBlock depth block rule) := by
  intro progress visited after seen run
  rw [run_offerBlock] at run
  obtain ⟨rfl, same⟩ | ⟨replacement, answer, -, rfl, rfl⟩ := settle_eq_ok (fun _ => rfl) run
  · exact ⟨look _ _ same.symm seen, 0, Progress.replacements_eq_of_uncounted_eq same, kept⟩
  · obtain ⟨seenAfter, holds⟩ := replaced progress replacement seen answer
    exact ⟨seenAfter, 1, by simp, holds⟩

/-- The offer of a field relates it to itself or to its replacement. -/
theorem yields_offerField {post : Nat → FieldDecl → Prop} {around : FieldDecl → ClassDecl}
    {field : FieldDecl} {rule : Rule}
    (look : ∀ progress after, progress.uncounted = after.uncounted → sees progress → sees after)
    (kept : post 0 field)
    (replaced : ∀ progress replacement, sees progress →
      rule.onField field (around field) progress.scope = .ok (some replacement) →
        sees ((progress.countReplacement rule).collect replacement.effects) ∧
          post 1 replacement.field) :
    Yields sees post (offerField around field rule) := by
  intro progress visited after seen run
  rw [run_offerField] at run
  obtain ⟨rfl, same⟩ | ⟨replacement, answer, -, rfl, rfl⟩ := settle_eq_ok (fun _ => rfl) run
  · exact ⟨look _ _ same.symm seen, 0, Progress.replacements_eq_of_uncounted_eq same, kept⟩
  · obtain ⟨seenAfter, holds⟩ := replaced progress replacement seen answer
    exact ⟨seenAfter, 1, by simp, holds⟩

/-- The visit of field declarations relates them one by one. -/
theorem yields_visitFields {related : Nat → FieldDecl → FieldDecl → Prop} {rules : List Rule}
    (offers : ∀ around field,
      Yields sees (related · field) (rules.foldlM (offerField around) field))
    (around : List FieldDecl → ClassDecl) :
    ∀ done fields : List FieldDecl,
      Yields sees (fun count visited => ∃ others, visited = done ++ others ∧
        Each related count fields others) (visitFields rules around done fields)
  | done, [] => by
    rw [visitFields]
    exact Yields.pure ⟨[], (List.append_nil done).symm, .nil⟩
  | done, field :: rest => by
    rw [visitFields]
    refine (offers _ field).bind fun count visited holds => ?_
    refine (yields_visitFields offers around (done ++ [visited]) rest).imp
      fun more result ⟨others, same, each⟩ => ?_
    exact ⟨visited :: others, by rw [same, List.append_assoc, List.singleton_append],
      .cons holds each⟩

/-! ## Classes -/

/-- **The parts of a visited class.** Its fields are offered, their initializers and its methods are
visited, and then the classes nested in it. -/
theorem VisitRelation.visitDecl {rules : List Rule} {onExpr : Nat → Nat → Expr → Expr → Prop}
    {onBlock : Nat → Nat → List Statement → List Statement → Prop}
    {offered : Nat → Expr → Expr → Prop}
    {offeredBlock : Nat → List Statement → List Statement → Prop}
    {onField : Nat → FieldDecl → FieldDecl → Prop} {onNested : Nat → List ClassDecl → Prop}
    (law : VisitRelation rules sees onExpr onBlock offered offeredBlock)
    (offers : ∀ around field, Yields sees (onField · field) (rules.foldlM (offerField around) field))
    (looks : ∀ progress fields, sees progress → sees (progress.seeFields fields)) {scope : Scope}
    {header : ClassHeader} {fields : List FieldDecl}
    {methods : List MethodDecl} {nested : List ClassDecl} {progress after : Progress}
    {visited : ClassDecl}
    (inner : ∀ depth scope, Yields (fun _ => True) onNested (visitNested rules slack depth scope nested))
    (entered : sees (progress.enter scope))
    (run : (visitClass rules slack depth scope (.decl header fields methods nested)).run progress =
      .ok visited after) :
    ∃ first second third fourth declared initialized called others last, sees last ∧
      after.replacements = progress.replacements + (first + second + (third + fourth)) ∧
      Each onField first fields declared ∧
      Each (fun count field visited => ∃ initializer, visited = { field with initializer } ∧
        Held (onExpr depth) count
          field.initializer initializer) second declared initialized ∧
      Each (fun count method visited => ∃ body, visited = { method with body } ∧
        onBlock depth count method.body body) third
          methods called ∧
      onNested fourth others ∧
      visited = .decl header (declareRequested last.requests initialized) called others := by
  obtain ⟨declared, offered, initialized, seen, called, last, others, runFields, runInitializers,
    runMethods, runNested, rfl⟩ := run_visitClass_eq_ok.mp run
  obtain ⟨seesOffered, first, countedFirst, _, rfl, onFields⟩ :=
    yields_visitFields offers _ [] fields _ _ _ entered runFields
  obtain ⟨seesInitialized, second, countedSecond, onInitializers⟩ :=
    Yields.mapList _ (fun field _ => law.visitInitializer depth field) _ _ _
      (looks offered _ seesOffered) runInitializers
  obtain ⟨seesCalled, third, countedThird, onMethods⟩ :=
    Yields.mapList _ (fun method _ => law.visitMethod depth method) _ _ _ seesInitialized runMethods
  obtain ⟨-, fourth, countedFourth, inside⟩ := inner _ _ _ _ _ trivial runNested
  refine ⟨first, second, third, fourth, _, initialized, called, others, last, seesCalled, ?_, onFields,
    onInitializers, onMethods, inside, rfl⟩
  have : (progress.enter scope).replacements = progress.replacements := rfl
  have : ∀ fields, (offered.seeFields fields).replacements = offered.replacements := fun _ => rfl
  simp only [this] at countedSecond
  omega

/-- The relation holds of the visit of a class if it holds of the visits of the classes nested in it. -/
def CarriesOver (rules : List Rule) (slack : Nat) (related : Nat → ClassDecl → ClassDecl → Prop) : Prop :=
  ∀ header fields methods nested depth scope, scope.current.fqn = header.fqn →
    (∀ depth scope,
      Yields (fun _ => True) (Each related · nested) (visitNested rules slack depth scope nested)) →
    Yields (fun _ => True) (related · (.decl header fields methods nested))
      (visitClass rules slack depth scope (.decl header fields methods nested))

namespace CarriesOver

variable {rules : List Rule} {related : Nat → ClassDecl → ClassDecl → Prop}

mutual

/-- Such a relation holds of the visits of all classes. -/
theorem visitClass (step : CarriesOver rules slack related) (depth : Nat) (scope : Scope) :
    ∀ declared : ClassDecl, scope.current.fqn = declared.fqn →
      Yields (fun _ => True) (related · declared) (visitClass rules slack depth scope declared)
  | .decl header fields methods nested => fun owned =>
    step header fields methods nested depth scope owned fun depth scope =>
      step.visitNested depth scope nested

/-- The relation holds of nested classes. -/
theorem visitNested (step : CarriesOver rules slack related) (depth : Nat) (scope : Scope) :
    ∀ nested : List ClassDecl,
      Yields (fun _ => True) (Each related · nested) (visitNested rules slack depth scope nested)
  | [] => by
    rw [Pass.visitNested]
    exact Yields.pure .nil
  | first :: rest => by
    rw [Pass.visitNested]
    refine (step.visitClass depth (scope.nested first) first rfl).bind
      fun count visited onFirst => ?_
    exact (step.visitNested depth scope rest).map (visited :: ·)
      fun more others onRest => .cons onFirst onRest

end

/-- Such a relation holds between the classes of a unit and those that a pass makes of them. -/
theorem visitUnit (step : CarriesOver rules slack related) {unit visited : CompilationUnit}
    {progress after : Progress} (run : (visitUnit rules slack unit).run progress = .ok visited after) :
    ∃ count, after.replacements = progress.replacements + count ∧
      Each related count unit.classes visited.classes := by
  obtain ⟨classes, runClasses, rfl⟩ := run_visitUnit_eq_ok.mp run
  obtain ⟨-, count, counted, each⟩ := Yields.mapList unit.classes
    (fun declared _ => step.visitClass _ (.ofClass declared _) declared rfl) _ _ _ trivial runClasses
  rw [classes_settleImports]
  exact ⟨count, counted, each⟩

end CarriesOver

/-! ## Passes that succeed -/

/-- The action succeeds, from whatever progress. -/
def Succeeds (action : PassM α) : Prop :=
  ∀ progress, ∃ result after, action.run progress = .ok result after

/-- The rule has an answer to every offer, and nests the blocks inside a block no deeper. -/
structure Answers (rule : Rule) : Prop where
  onExpr (expr : Expr) (scope : Scope) : ∃ reply, rule.onExpr expr scope = .ok reply
  onBlock (block : List Statement) (scope : Scope) : ∃ reply, rule.onBlock block scope = .ok reply
  onField (field : FieldDecl) (declared : ClassDecl) (scope : Scope) :
    ∃ reply, rule.onField field declared scope = .ok reply
  noDeeper (block : List Statement) (scope : Scope) (replacement : BlockReplacement) :
    rule.onBlock block scope = .ok (some replacement) →
      Statement.blockDepthList replacement.statements ≤ Statement.blockDepthList block

/-- Returning a result succeeds. -/
theorem succeeds_pure (result : α) : Succeeds (pure result) := fun progress => ⟨result, progress, rfl⟩

/-- Successes follow each other. -/
theorem succeeds_bind {visit : PassM α} {next : α → PassM β} (first : Succeeds visit)
    (second : ∀ result, Succeeds (next result)) : Succeeds (visit >>= next) := by
  intro progress
  obtain ⟨value, middle, runFirst⟩ := first progress
  obtain ⟨result, after, runSecond⟩ := second value middle
  exact ⟨result, after, run_bind_eq_ok.mpr ⟨value, middle, runFirst, runSecond⟩⟩

/-- To succeed is kept when visits are put together. -/
theorem succeeds_compositional : Compositional fun {_} _ visit => Succeeds visit where
  pure := succeeds_pure
  bind _ := succeeds_bind

section Succeeds

variable {rules : List Rule}

/-- To succeed is a law of visits for rules that answer. -/
theorem succeeds_jointLaw (answers : ∀ rule ∈ rules, Answers rule) :
    JointLaw rules rules fun {_} _ visit _ => Succeeds visit where
  toJoint := succeeds_compositional.toJoint
  offersExpr depth expr := by
    refine succeeds_compositional.foldOffers _ rules expr fun rule member expr progress => ?_
    rw [run_offerExpr]
    refine exists_settle_eq_ok ?_
    split
    · exact (answers rule member).onExpr expr _
    · exact ⟨none, rfl⟩
  offersBlock depth block := by
    refine succeeds_compositional.foldOffers _ rules block fun rule member block progress => ?_
    rw [run_offerBlock]
    exact exists_settle_eq_ok ((answers rule member).onBlock block _)
  offersField around field := by
    refine succeeds_compositional.foldOffers _ rules field fun rule member field progress => ?_
    rw [run_offerField]
    exact exists_settle_eq_ok ((answers rule member).onField field (around field) progress.scope)

/-- The blocks inside a block that has been offered are nested no deeper than before. -/
theorem blockDepthList_of_offers (answers : ∀ rule ∈ rules, Answers rule)
    {visited : List Statement} {progress after : Progress}
    (run : (rules.foldlM (offerBlock depth) block).run progress = .ok visited after) :
    Statement.blockDepthList visited ≤ Statement.blockDepthList block := by
  have offer (rule : Rule) (member : rule ∈ rules) (block : List Statement) :
      Yields (fun _ => True)
        (fun _ visited => Statement.blockDepthList visited ≤ Statement.blockDepthList block)
        (offerBlock depth block rule) :=
    yields_offerBlock (fun _ _ _ _ => trivial) (Nat.le_refl _) fun _ replacement _ answer =>
      ⟨trivial, (answers rule member).noDeeper block _ replacement answer⟩
  have offers : Yields (fun _ => True)
      (fun _ visited => Statement.blockDepthList visited ≤ Statement.blockDepthList block)
      (rules.foldlM (offerBlock depth) block) := by
    refine Yields.foldOffers ?_ ?_ rules block offer
    · exact fun _ => Nat.le_refl _
    · exact fun first second => Nat.le_trans second first
  obtain ⟨-, _, -, shallow⟩ := offers _ _ _ trivial run
  exact shallow

/-- The visit of a block succeeds if it may go as deep as the blocks inside. -/
theorem succeeds_visitBlock (answers : ∀ rule ∈ rules, Answers rule) {height : Nat} (depth : Nat)
    (enough : Statement.blockDepthList block < height) :
    Succeeds (visitBlock rules height depth block) := by
  induction height generalizing depth block with
  | zero => exact absurd enough (Nat.not_lt_zero _)
  | succ height ih =>
    have law := succeeds_jointLaw answers
    intro progress
    obtain ⟨replaced, middle, offered⟩ := law.offersBlock depth block progress
    have statements (statement : Statement) (member : statement ∈ replaced) :
        Succeeds (visitStatement rules (visitBlock rules height) depth statement) := by
      have shallow := blockDepthList_of_offers answers offered
      have inside := Statement.blockDepth_le_of_mem member
      exact @JointLaw.visitStatement _ _ height _ law (visitBlock rules height)
        (visitBlock rules height) (fun depth _ within => ih depth within) depth statement (by omega)
    obtain ⟨visited, after, run⟩ :=
      succeeds_compositional.mapList _ replaced statements middle
    exact ⟨visited, after, run_bind_eq_ok.mpr ⟨replaced, middle, offered, run⟩⟩

/-- Visits of methods succeed. -/
theorem succeeds_visitMethod (answers : ∀ rule ∈ rules, Answers rule) (depth : Nat)
    (method : MethodDecl) : Succeeds (visitMethod rules slack depth method) := by
  have enough : Statement.blockDepthList method.body < Statement.blockDepthList method.body + 1 + slack :=
    by omega
  exact succeeds_bind (succeeds_visitBlock answers depth enough) fun _ => succeeds_pure _

/-- So do visits of initializers. -/
theorem succeeds_visitInitializer (answers : ∀ rule ∈ rules, Answers rule) (depth : Nat)
    (field : FieldDecl) : Succeeds (visitInitializer rules slack depth field) := by
  have law := succeeds_jointLaw answers
  have exprs (initial : Expr) :
      Succeeds (visitExpr rules (visitBlock rules (initial.blockDepth + slack)) depth initial) :=
    @JointLaw.visitExpr _ _ _ _ law _ (visitBlock rules (initial.blockDepth + slack))
      (fun depth _ within => succeeds_visitBlock answers depth within) depth initial
      (Nat.le_add_right _ slack)
  refine succeeds_bind ?_ fun _ => succeeds_pure _
  cases field.initializer with
  | none => exact succeeds_pure none
  | some initial => exact succeeds_bind (exprs initial) fun _ => succeeds_pure _

/-- A pass with rules that answer every offer succeeds. -/
theorem succeeds_visitUnit (answers : ∀ rule ∈ rules, Answers rule) (unit : CompilationUnit) :
    Succeeds (visitUnit rules slack unit) := by
  have classes : ClassLaw rules slack Succeeds := {
    pure := succeeds_pure
    bind := succeeds_bind
    visitFields := fun around => (succeeds_jointLaw answers).visitFields around []
    visitInitializer := succeeds_visitInitializer answers
    visitMethod := succeeds_visitMethod answers
    get := fun _ => ⟨_, _, rfl⟩
    enter := fun _ _ => ⟨_, _, rfl⟩
    seeFields := fun _ _ => ⟨_, _, rfl⟩ }
  exact classes.visitUnit unit

end Succeeds

end LogCalls.Pass
