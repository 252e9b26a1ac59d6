import LogCalls.Proofs.Engine.Visits
import LogCalls.Proofs.Tree.Sites

/-! # What a pass makes of sites

A relation between the sites of a node before and after a pass can be put together from those of its
parts. What a pass makes of the sites in the members of a class can therefore be argued for one
expression whose parts have been visited. -/

namespace LogCalls.Pass

/-! ## Sites of rebuilt nodes -/

/-- A relation between lists of sites that can be put together. -/
structure Gathers (related : List Site → List Site → Prop) : Prop where
  nil : related [] []
  append {front others back more : List Site} :
    related front others → related back more → related (front ++ back) (others ++ more)

/-- The sites of an expression are related, wherever a pass with this many levels left comes to its
end. -/
def FollowsExpr (related : List Site → List Site → Prop) (fields : List String) (depth : Nat)
    (before after : Expr) : Prop :=
  ∀ place : Place, place.fields = fields → maxDepth ≤ place.level + depth →
    related (before.sites place) (after.sites place)

/-- The sites of a block are related. -/
def FollowsBlock (related : List Site → List Site → Prop) (fields : List String) (depth : Nat)
    (before after : List Statement) : Prop :=
  ∀ place : Place, place.fields = fields → maxDepth ≤ place.level + depth →
    related (Statement.sitesList place before) (Statement.sitesList place after)

namespace Gathers

variable {related : List Site → List Site → Prop} {fields : List String} {depth count : Nat}
  {place : Place}

/-- Related sites of the nodes in two lists are put together. -/
theorem flatMap {α : Type} {sites : α → List Site} (gathers : Gathers related) {before after : List α}
    (each : List.Forall₂ (fun node visited => related (sites node) (sites visited)) before after) :
    related (before.flatMap sites) (after.flatMap sites) := by
  induction each with
  | nil => exact gathers.nil
  | cons holds _ ih =>
    rw [List.flatMap_cons, List.flatMap_cons]
    exact gathers.append holds ih

theorem exprs (gathers : Gathers related) {before after : List Expr}
    (each : Each (fun _ => FollowsExpr related fields depth) count before after)
    (here : place.fields = fields)
    (enough : maxDepth ≤ place.level + depth) :
    related (Expr.sitesList place before) (Expr.sitesList place after) := by
  induction each with
  | nil => exact gathers.nil
  | cons follows _ ih =>
    rw [Expr.sitesList, Expr.sitesList]
    exact gathers.append (follows place here enough) ih

/-- The parts of an expression that is rebuilt are related. -/
theorem parts (gathers : Gathers related) {before after : Expr}
    (rebuilt : Rebuilt (fun _ => FollowsExpr related fields depth)
      (fun _ => FollowsBlock related fields depth) count before after)
    (here : place.fields = fields)
    (enough : maxDepth ≤ place.level + (depth + 1)) :
    related (before.parts place) (after.parts place) := by
  -- All parts stand one level deeper, and the pass has one level less to go.
  have below : maxDepth ≤ place.inner.level + depth := by
    change maxDepth ≤ place.level + 1 + depth
    omega
  cases rebuilt with
  | literal => exact gathers.nil
  | identifier => exact gathers.nil
  | typeRef => exact gathers.nil
  | classLiteral => exact gathers.nil
  | fieldAccess name type target => exact target place.inner here below
  | methodCall name method select arguments =>
    cases select with
    | none => exact gathers.exprs arguments here below
    | some select =>
      exact gathers.append (select place.receiver here below)
        (gathers.exprs arguments here below)
  | binary operator type left right =>
    exact gathers.append (left place.inner here below)
      (right place.inner here below)
  | newClass type arguments => exact gathers.exprs arguments here below
  | newArray element elements => exact gathers.exprs elements here below
  | lambda parameters body => exact body (place.inner.binding parameters) here below
  | parens inner => exact inner place.bare here below

theorem catches (gathers : Gathers related) {before after : List CatchClause}
    (each : Each (RebuiltCatch fun _ => FollowsBlock related fields depth) count before after)
    (here : place.fields = fields)
    (enough : maxDepth ≤ place.level + depth) :
    related (CatchClause.sitesList place before) (CatchClause.sitesList place after) := by
  induction each with
  | nil => exact gathers.nil
  | cons handled _ ih =>
    cases handled with
    | handler parameter type body =>
      rw [CatchClause.sitesList, CatchClause.sitesList]
      exact gathers.append (body (place.binding [parameter]) here enough)
        ih

/-- The sites of a statement that is rebuilt are related. -/
theorem statement (gathers : Gathers related) {before after : Statement}
    (rebuilt : RebuiltStatement (fun _ => FollowsExpr related fields depth)
      (fun _ => FollowsBlock related fields depth) count before after)
    (here : place.fields = fields)
    (enough : maxDepth ≤ place.level + depth) :
    related (before.sites place) (after.sites place) := by
  cases rebuilt with
  | expression value => exact value place here enough
  | declaration name type initial =>
    cases initial with
    | none => exact gathers.nil
    | some initial => exact initial place here enough
  | block body => exact body place here enough
  | conditional condition thenBranch elseBranch =>
    cases elseBranch with
    | none =>
      exact gathers.append (condition place here enough)
        (thenBranch place here enough)
    | some elseBranch =>
      exact gathers.append (condition place here enough)
        (gathers.append (thenBranch place here enough)
          (elseBranch place here enough))
  | guarded body handlers finallyBlock =>
    cases finallyBlock with
    | none =>
      exact gathers.append (body place here enough)
        (gathers.catches handlers here enough)
    | some finallyBlock =>
      exact gathers.append (body place here enough)
        (gathers.append (gathers.catches handlers here enough)
          (finallyBlock place here enough))
  | returning value =>
    cases value with
    | none => exact gathers.nil
    | some value => exact value place here enough

/-- The sites of a block whose statements are rebuilt are related. -/
theorem block (gathers : Gathers related) {before after : List Statement}
    (each : Each (RebuiltStatement (fun _ => FollowsExpr related fields depth)
      (fun _ => FollowsBlock related fields depth)) count before after)
    (here : place.fields = fields)
    (enough : maxDepth ≤ place.level + depth) :
    related (Statement.sitesList place before) (Statement.sitesList place after) := by
  induction each generalizing place with
  | nil => exact gathers.nil
  | @cons _ _ before after _ _ rebuilt _ ih =>
    -- What a statement declares for those behind it is kept.
    have declares : after.declared = before.declared := by cases rebuilt <;> rfl
    rw [Statement.sitesList, Statement.sitesList, declares]
    exact gathers.append (gathers.statement rebuilt here enough)
      (ih here enough)

end Gathers

/-! ## Laws -/

/-- What is kept of an expression is known, and its sites are related where it stands at this level. -/
def FollowsPart (kept : Expr → Expr → Prop) (related : List Site → List Site → Prop)
    (fields : List String) (level : Nat) (before after : Expr) : Prop :=
  kept before after ∧ ∀ place : Place, place.fields = fields → place.level = level →
    related (before.sites place) (after.sites place)

/-- If the parts of an expression follow, they keep what is to be kept. -/
theorem Rebuilt.kept {kept : Expr → Expr → Prop} {related : List Site → List Site → Prop}
    {fields : List String} {level count : Nat} {before after : Expr}
    (parts : Rebuilt (fun _ => FollowsPart kept related fields level) (fun _ _ _ => True) count before
      after) : Rebuilt (fun _ => kept) (fun _ _ _ => True) count before after :=
  parts.imp (fun _ _ _ follows => follows.1) fun _ _ _ _ => trivial

/-- A relation between sites before and after a pass that can be put together, holds of what the pass
does not reach, and goes from the parts of an expression to the whole. The rules make `rewrite` of an
expression and leave blocks alone; `kept` is what is known of an expression and what becomes of it. -/
structure SiteLaw (rules : List Rule) (sees : Progress → Prop) (rewrite : Expr → Expr)
    (kept : Expr → Expr → Prop) (fields : List String) (related : List Site → List Site → Prop) : Prop
    extends Gathers related where
  offersExpr (depth : Nat) (expr : Expr) :
    Yields sees (fun _ visited => visited = rewrite expr) (rules.foldlM (offerExpr depth) expr)
  offersBlock (depth : Nat) (block : List Statement) :
    Yields sees (fun _ visited => visited = block) (rules.foldlM (offerBlock depth) block)
  same (expr : Expr) : kept expr expr
  keeps {count : Nat} {before rebuilt : Expr} :
    Rebuilt (fun _ => kept) (fun _ _ _ => True) count before rebuilt → kept before (rewrite rebuilt)
  deep (place : Place) (expr : Expr) : maxDepth ≤ place.level →
    related (expr.sites place) (expr.sites place)
  node {place : Place} {count : Nat} {before rebuilt : Expr} : place.fields = fields →
    Rebuilt (fun _ => FollowsPart kept related fields (place.level + 1)) (fun _ _ _ => True) count before
      rebuilt →
    related (before.parts place) (rebuilt.parts place) →
    related (before.sites place) ((rewrite rebuilt).sites place)

namespace SiteLaw

variable {rules : List Rule} {slack : Nat} {sees : Progress → Prop} {rewrite : Expr → Expr}
  {kept : Expr → Expr → Prop} {fields : List String} {related : List Site → List Site → Prop}

/-- The relation goes along with visits. -/
theorem visitRelation (law : SiteLaw rules sees rewrite kept fields related) :
    VisitRelation rules sees
      (fun depth _ before after =>
        kept before after ∧ FollowsExpr related fields depth before after)
      (fun depth _ before after => FollowsBlock related fields depth before after)
      (fun _ rebuilt visited => visited = rewrite rebuilt) (fun _ block visited => visited = block) where
  unvisited expr := ⟨law.same expr, fun place _ enough => law.deep place expr enough⟩
  node {depth count more expr rebuilt visited} parts offered := by
    subst offered
    refine ⟨law.keeps (parts.imp (fun _ _ _ both => both.1) fun _ _ _ _ => trivial),
      fun place here enough => law.node here (parts.imp (fun _ _ _ both => ?_) fun _ _ _ _ => trivial)
        (law.parts (parts.imp (fun _ _ _ both => both.2) fun _ _ _ follows => follows) here enough)⟩
    exact ⟨both.1, fun other same level => both.2 other same (by omega)⟩
  block {depth count more block replaced visited} offered each := by
    subst offered
    intro place here enough
    exact law.block (each.imp fun _ _ _ rebuilt =>
      rebuilt.imp (fun _ _ _ both => both.2) fun _ _ _ follows => follows) here enough
  offersExpr := law.offersExpr
  offersBlock := law.offersBlock

/-- The sites of a method are related when it is visited. -/
theorem visitMethod (law : SiteLaw rules sees rewrite kept fields related) (depth : Nat)
    (method : MethodDecl) :
    Yields sees (fun _ visited => ∀ place : Place, place.fields = fields →
        maxDepth ≤ place.level + depth → related (method.sites place) (visited.sites place))
      (Pass.visitMethod rules slack depth method) :=
  (law.visitRelation.visitMethod depth method).imp fun _ _ ⟨body, same, follows⟩ => by
    subst same
    intro place here enough
    exact follows _ here enough

/-- The sites of a field are related when its initializer is visited. Only the initializer changes. -/
theorem visitInitializer (law : SiteLaw rules sees rewrite kept fields related) (depth : Nat)
    (field : FieldDecl) :
    Yields sees (fun _ visited => visited.name = field.name ∧ visited.type = field.type ∧
        ∀ place : Place, place.fields = fields → maxDepth ≤ place.level + depth →
          related (field.sites place) (visited.sites place))
      (Pass.visitInitializer rules slack depth field) :=
  (law.visitRelation.visitInitializer depth field).imp fun _ _ ⟨initializer, same, held⟩ => by
    subst same
    refine ⟨rfl, rfl, fun place here enough => ?_⟩
    unfold FieldDecl.sites
    generalize field.initializer = initial at held
    cases held with
    | none => exact law.nil
    | some both => exact both.2 place.initial here enough

end SiteLaw

end LogCalls.Pass
