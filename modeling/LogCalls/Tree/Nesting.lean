import LogCalls.Tree.Unit

/-! # Nesting of blocks

How deeply blocks are nested in a tree. A block counts one more than the deepest block inside it. -/

namespace LogCalls

mutual

/-- The nesting of the blocks inside an expression. -/
def Expr.blockDepth : Expr → Nat
  | .literal _ => 0
  | .identifier _ _ => 0
  | .typeRef _ => 0
  | .fieldAccess target _ _ => target.blockDepth
  | .methodCall (some select) _ arguments _ =>
    max select.blockDepth (Expr.blockDepthList arguments)
  | .methodCall none _ arguments _ => Expr.blockDepthList arguments
  | .binary _ left right _ => max left.blockDepth right.blockDepth
  | .newClass _ arguments => Expr.blockDepthList arguments
  | .newArray _ elements => Expr.blockDepthList elements
  | .classLiteral _ => 0
  | .lambda _ body => Statement.blockDepthList body + 1
  | .parens inner => inner.blockDepth

/-- The nesting of the blocks inside a list of expressions. -/
def Expr.blockDepthList : List Expr → Nat
  | [] => 0
  | expr :: rest => max expr.blockDepth (Expr.blockDepthList rest)

/-- The nesting of the blocks inside a statement. -/
def Statement.blockDepth : Statement → Nat
  | .expression value => value.blockDepth
  | .declaration _ _ (some initial) => initial.blockDepth
  | .declaration _ _ none => 0
  | .block body => Statement.blockDepthList body + 1
  | .conditional condition thenBranch (some elseBranch) =>
    max condition.blockDepth
      (max (Statement.blockDepthList thenBranch + 1) (Statement.blockDepthList elseBranch + 1))
  | .conditional condition thenBranch none =>
    max condition.blockDepth (Statement.blockDepthList thenBranch + 1)
  | .guarded body catches (some finallyBlock) =>
    max (Statement.blockDepthList body + 1)
      (max (CatchClause.blockDepthList catches) (Statement.blockDepthList finallyBlock + 1))
  | .guarded body catches none =>
    max (Statement.blockDepthList body + 1) (CatchClause.blockDepthList catches)
  | .returning (some value) => value.blockDepth
  | .returning none => 0

/-- The nesting of the blocks inside the statements of a block. -/
def Statement.blockDepthList : List Statement → Nat
  | [] => 0
  | statement :: rest => max statement.blockDepth (Statement.blockDepthList rest)

/-- The nesting of the blocks of handlers. -/
def CatchClause.blockDepthList : List CatchClause → Nat
  | [] => 0
  | .handler _ _ body :: rest =>
    max (Statement.blockDepthList body + 1) (CatchClause.blockDepthList rest)

end

/-- The blocks in a list of expressions are nested as deep as in one of them. -/
theorem Expr.blockDepthList_le_iff {limit : Nat} {exprs : List Expr} :
    Expr.blockDepthList exprs ≤ limit ↔ ∀ expr ∈ exprs, expr.blockDepth ≤ limit := by
  induction exprs with
  | nil => simp [Expr.blockDepthList]
  | cons first rest ih =>
    rw [Expr.blockDepthList, Nat.max_le, ih, List.forall_mem_cons]

/-- No statement of a block has deeper nested blocks than the block. -/
theorem Statement.blockDepth_le_of_mem {statement : Statement} {block : List Statement}
    (member : statement ∈ block) : statement.blockDepth ≤ Statement.blockDepthList block := by
  induction block with
  | nil => cases member
  | cons first rest ih =>
    rw [Statement.blockDepthList]
    obtain rfl | member := List.mem_cons.mp member
    · exact Nat.le_max_left _ _
    · exact Nat.le_trans (ih member) (Nat.le_max_right _ _)

end LogCalls
