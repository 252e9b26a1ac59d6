import LogCalls.Tree.Expr

/-! # Equality of trees

Structural equality of expressions and statements. `Expr.same` and its companions compare two trees
node by node; `Expr.same_iff` shows that they decide equality, which gives the instances that
the engine uses to tell whether a rule has changed anything. -/

namespace LogCalls

mutual

/-- Two expressions are the same tree. -/
def Expr.same : Expr → Expr → Bool
  | .literal a, .literal b => a == b
  | .identifier n t, .identifier n' t' => n == n' && t == t'
  | .typeRef n, .typeRef n' => n == n'
  | .fieldAccess e n t, .fieldAccess e' n' t' => e.same e' && n == n' && t == t'
  | .methodCall s n as m, .methodCall s' n' as' m' =>
    Expr.sameOption s s' && n == n' && Expr.sameList as as' && m == m'
  | .binary o l r t, .binary o' l' r' t' => o == o' && l.same l' && r.same r' && t == t'
  | .newClass t as, .newClass t' as' => t == t' && Expr.sameList as as'
  | .newArray t es, .newArray t' es' => t == t' && Expr.sameList es es'
  | .classLiteral n, .classLiteral n' => n == n'
  | .lambda ps b, .lambda ps' b' => ps == ps' && Statement.sameList b b'
  | .parens e, .parens e' => e.same e'
  | _, _ => false
termination_by structural first => first

/-- Two lists of expressions are the same. -/
def Expr.sameList : List Expr → List Expr → Bool
  | [], [] => true
  | a :: as, b :: bs => a.same b && Expr.sameList as bs
  | _, _ => false
termination_by structural first => first

/-- Two optional expressions are the same. -/
def Expr.sameOption : Option Expr → Option Expr → Bool
  | none, none => true
  | some a, some b => a.same b
  | _, _ => false
termination_by structural first => first

/-- Two statements are the same tree. -/
def Statement.same : Statement → Statement → Bool
  | .expression e, .expression e' => e.same e'
  | .declaration n t i, .declaration n' t' i' => n == n' && t == t' && Expr.sameOption i i'
  | .block b, .block b' => Statement.sameList b b'
  | .conditional c t e, .conditional c' t' e' =>
    c.same c' && Statement.sameList t t' && Statement.sameOptionList e e'
  | .guarded b cs f, .guarded b' cs' f' =>
    Statement.sameList b b' && CatchClause.sameList cs cs' && Statement.sameOptionList f f'
  | .returning v, .returning v' => Expr.sameOption v v'
  | _, _ => false
termination_by structural first => first

/-- Two blocks are the same. -/
def Statement.sameList : List Statement → List Statement → Bool
  | [], [] => true
  | a :: as, b :: bs => a.same b && Statement.sameList as bs
  | _, _ => false
termination_by structural first => first

/-- Two optional blocks are the same. -/
def Statement.sameOptionList : Option (List Statement) → Option (List Statement) → Bool
  | none, none => true
  | some a, some b => Statement.sameList a b
  | _, _ => false
termination_by structural first => first

/-- Two handlers are the same. -/
def CatchClause.same : CatchClause → CatchClause → Bool
  | .handler p t b, .handler p' t' b' => p == p' && t == t' && Statement.sameList b b'
termination_by structural first => first

/-- Two lists of handlers are the same. -/
def CatchClause.sameList : List CatchClause → List CatchClause → Bool
  | [], [] => true
  | a :: as, b :: bs => a.same b && CatchClause.sameList as bs
  | _, _ => false
termination_by structural first => first

end

mutual

/-- Comparison node by node decides equality of expressions. -/
theorem Expr.same_iff : ∀ a b : Expr, a.same b = true ↔ a = b
  | .literal _, b => by cases b <;> simp [Expr.same]
  | .identifier _ _, b => by cases b <;> simp [Expr.same]
  | .typeRef _, b => by cases b <;> simp [Expr.same]
  | .fieldAccess e _ _, b => by cases b <;> simp [Expr.same, Expr.same_iff e, and_assoc]
  | .methodCall s _ as _, b => by
    cases b <;> simp [Expr.same, Expr.sameOption_iff s, Expr.sameList_iff as, and_assoc]
  | .binary _ l r _, b => by
    cases b <;> simp [Expr.same, Expr.same_iff l, Expr.same_iff r, and_assoc]
  | .newClass _ as, b => by cases b <;> simp [Expr.same, Expr.sameList_iff as]
  | .newArray _ es, b => by cases b <;> simp [Expr.same, Expr.sameList_iff es]
  | .classLiteral _, b => by cases b <;> simp [Expr.same]
  | .lambda _ body, b => by cases b <;> simp [Expr.same, Statement.sameList_iff body]
  | .parens e, b => by cases b <;> simp [Expr.same, Expr.same_iff e]

/-- Comparison decides equality of lists of expressions. -/
theorem Expr.sameList_iff : ∀ as bs : List Expr, Expr.sameList as bs = true ↔ as = bs
  | [], bs => by cases bs <;> simp [Expr.sameList]
  | a :: as, bs => by cases bs <;> simp [Expr.sameList, Expr.same_iff a, Expr.sameList_iff as]

/-- Comparison decides equality of optional expressions. -/
theorem Expr.sameOption_iff : ∀ a b : Option Expr, Expr.sameOption a b = true ↔ a = b
  | none, b => by cases b <;> simp [Expr.sameOption]
  | some a, b => by cases b <;> simp [Expr.sameOption, Expr.same_iff a]

/-- Comparison decides equality of statements. -/
theorem Statement.same_iff : ∀ a b : Statement, a.same b = true ↔ a = b
  | .expression e, b => by cases b <;> simp [Statement.same, Expr.same_iff e]
  | .declaration _ _ i, b => by
    cases b <;> simp [Statement.same, Expr.sameOption_iff i, and_assoc]
  | .block body, b => by cases b <;> simp [Statement.same, Statement.sameList_iff body]
  | .conditional c t e, b => by
    cases b <;> simp [Statement.same, Expr.same_iff c, Statement.sameList_iff t,
      Statement.sameOptionList_iff e, and_assoc]
  | .guarded body cs f, b => by
    cases b <;> simp [Statement.same, Statement.sameList_iff body, CatchClause.sameList_iff cs,
      Statement.sameOptionList_iff f, and_assoc]
  | .returning v, b => by cases b <;> simp [Statement.same, Expr.sameOption_iff v]

/-- Comparison decides equality of blocks. -/
theorem Statement.sameList_iff :
    ∀ as bs : List Statement, Statement.sameList as bs = true ↔ as = bs
  | [], bs => by cases bs <;> simp [Statement.sameList]
  | a :: as, bs => by
    cases bs <;> simp [Statement.sameList, Statement.same_iff a, Statement.sameList_iff as]

/-- Comparison decides equality of optional blocks. -/
theorem Statement.sameOptionList_iff :
    ∀ a b : Option (List Statement), Statement.sameOptionList a b = true ↔ a = b
  | none, b => by cases b <;> simp [Statement.sameOptionList]
  | some a, b => by cases b <;> simp [Statement.sameOptionList, Statement.sameList_iff a]

/-- Comparison decides equality of handlers. -/
theorem CatchClause.same_iff : ∀ a b : CatchClause, a.same b = true ↔ a = b
  | .handler _ _ body, .handler _ _ _ => by
    simp [CatchClause.same, Statement.sameList_iff body, and_assoc]

/-- Comparison decides equality of lists of handlers. -/
theorem CatchClause.sameList_iff :
    ∀ as bs : List CatchClause, CatchClause.sameList as bs = true ↔ as = bs
  | [], bs => by cases bs <;> simp [CatchClause.sameList]
  | a :: as, bs => by
    cases bs <;> simp [CatchClause.sameList, CatchClause.same_iff a, CatchClause.sameList_iff as]

end

instance : DecidableEq Expr := fun a b => decidable_of_iff _ (Expr.same_iff a b)

instance : DecidableEq Statement := fun a b => decidable_of_iff _ (Statement.same_iff a b)

end LogCalls
