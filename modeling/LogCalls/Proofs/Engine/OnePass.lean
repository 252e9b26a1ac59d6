import LogCalls.Proofs.Engine.FixedPoint
import LogCalls.Proofs.Engine.SiteLaw
import LogCalls.Proofs.Engine.Spares

/-! # Rules that are done after one pass

A pass goes from the inside out, so a rule that looks at one expression at a time meets every
expression with its parts rewritten already. If what it then makes of the expression is settled through
and through, and it leaves settled expressions alone, the second pass has nothing left to do. -/

namespace LogCalls

/-! ## Local rules -/

/-- The rule looks at nothing but the expression that it is offered: it applies if it wants the
expression, and all that it does is to put the replacement in place. -/
structure Rule.IsLocal (rule : Rule) (wants : Expr → Bool) (replace? : Expr → Option Replacement) :
    Prop where
  applies (expr : Expr) (scope : Scope) : rule.applies expr scope = wants expr
  onExpr (expr : Expr) (scope : Scope) : rule.onExpr expr scope = .ok (replace? expr)
  onBlock (block : List Statement) (scope : Scope) : rule.onBlock block scope = .ok none
  onField (field : FieldDecl) (declared : ClassDecl) (scope : Scope) :
    rule.onField field declared scope = .ok none
  field {expr : Expr} {replacement : Replacement} :
    replace? expr = some replacement → replacement.effects.field = none

/-- The expression after it is offered. -/
def Rule.rewrite (wants : Expr → Bool) (replace? : Expr → Option Replacement) (expr : Expr) : Expr :=
  if wants expr then ((replace? expr).map (·.expr)).getD expr else expr

/-- Rewriting an expression whose parts are settled leaves nothing but settled expressions, if the
expression was plain before its parts were visited. Settled expressions are not rewritten. -/
structure Rule.Settles (rewrite : Expr → Expr) (plain settled : Expr → Prop) : Prop where
  node {count : Nat} {before rebuilt : Expr} {place : Place} :
    Pass.Rebuilt (fun _ _ _ => True) (fun _ _ _ => True) count before rebuilt → plain before →
      Throughout settled (rebuilt.parts place) → Throughout settled ((rewrite rebuilt).sites place)
  fixed {expr : Expr} : settled expr → rewrite expr = expr

namespace Rule.IsLocal

variable {rule : Rule} {wants : Expr → Bool} {replace? : Expr → Option Replacement}

theorem answers (isLocal : rule.IsLocal wants replace?) : Pass.Answers rule where
  onExpr expr scope := ⟨_, isLocal.onExpr expr scope⟩
  onBlock block scope := ⟨_, isLocal.onBlock block scope⟩
  onField field declared scope := ⟨_, isLocal.onField field declared scope⟩
  noDeeper block scope _ made := by
    rw [isLocal.onBlock] at made
    cases made

/-- The rule leaves alone what it rewrites to itself. -/
theorem heeds (isLocal : rule.IsLocal wants replace?) :
    rule.Heeds fun expr => Rule.rewrite wants replace? expr = expr where
  onExpr {expr scope replacement} applies made changed same := by
    rw [isLocal.applies] at applies
    rw [isLocal.onExpr] at made
    rw [Rule.rewrite, if_pos applies, Except.ok.inj made] at same
    exact changed same
  onBlock {block scope replacement} made := by
    rw [isLocal.onBlock] at made
    cases made
  onField {field declared scope replacement} made := by
    rw [isLocal.onField] at made
    cases made

/-- An expression that is offered is rewritten, and no field is requested. -/
theorem yields_offerExpr (isLocal : rule.IsLocal wants replace?) (depth : Nat) (expr : Expr) :
    Pass.Yields (·.requests = []) (fun _ visited => visited = Rule.rewrite wants replace? expr)
      ([rule].foldlM (Pass.offerExpr depth) expr) := by
  refine Pass.Yields.offerSingle ?_
  intro progress visited after sees run
  rw [Pass.run_offerExpr, isLocal.applies, isLocal.onExpr] at run
  obtain ⟨reply, answer, visits⟩ := Pass.settle_returns run
  have rewritten : visited = Rule.rewrite wants replace? expr := by
    rw [visits, Rule.rewrite]
    split at answer
    · rename_i wanted
      rw [if_pos wanted, ← Except.ok.inj answer]
    · rename_i unwanted
      rw [if_neg unwanted, ← Except.ok.inj answer]
      rfl
  obtain ⟨-, same⟩ | ⟨replacement, replaced, -, -, rfl⟩ := Pass.settle_eq_ok (by
    intro start
    split <;> rfl) run
  · exact ⟨(Progress.requests_eq_of_uncounted_eq same).trans sees, 0,
      Progress.replacements_eq_of_uncounted_eq same, rewritten⟩
  · refine ⟨?_, 1, by simp, rewritten⟩
    have noField : replacement.effects.field = none := by
      split at replaced
      · exact isLocal.field (Except.ok.inj replaced)
      · cases replaced
    rw [Progress.absorb, noField]
    exact sees

theorem yields_offerBlock (isLocal : rule.IsLocal wants replace?) (depth : Nat)
    (block : List Statement) :
    Pass.Yields (·.requests = []) (fun _ visited => visited = block)
      ([rule].foldlM (Pass.offerBlock depth) block) := by
  refine Pass.Yields.offerSingle (Pass.yields_offerBlock
    (fun _ _ same sees => (Progress.requests_eq_of_uncounted_eq same).symm.trans sees) rfl ?_)
  intro progress replacement _ answer
  rw [isLocal.onBlock] at answer
  cases answer

theorem yields_visitFields (isLocal : rule.IsLocal wants replace?)
    (around : List FieldDecl → ClassDecl) (fields : List FieldDecl) :
    Pass.Yields (·.requests = []) (fun _ visited => visited = fields)
      (Pass.visitFields [rule] around [] fields) := by
  have offers (around : FieldDecl → ClassDecl) (field : FieldDecl) :
      Pass.Yields (·.requests = []) (fun _ visited => visited = field)
        ([rule].foldlM (Pass.offerField around) field) := by
    refine Pass.Yields.offerSingle (Pass.yields_offerField
      (fun _ _ same sees => (Progress.requests_eq_of_uncounted_eq same).symm.trans sees) rfl ?_)
    intro progress replacement _ answer
    rw [isLocal.onField] at answer
    cases answer
  refine (Pass.yields_visitFields offers around [] fields).imp ?_
  rintro count visited ⟨others, rfl, each⟩
  induction each with
  | nil => rfl
  | cons same _ ih => exact List.cons_eq_cons.mpr ⟨same, ih⟩

end Rule.IsLocal

/-! ## One pass -/

namespace Pass

/-- Sites that a pass reaches and whose expressions are plain become sites with settled expressions. -/
def Brings (plain settled : Expr → Prop) (before after : List Site) : Prop :=
  (∀ site ∈ before, site.level < maxDepth ∧ plain site.expr) → Throughout settled after

section Visits

variable {rule : Rule} {wants : Expr → Bool} {replace? : Expr → Option Replacement}
  {plain settled : Expr → Prop} {slack : Nat}

theorem gathers_brings : Gathers (Brings plain settled) where
  nil _ := List.forall_mem_nil _
  append first second reached := by
    obtain ⟨front, back⟩ := List.forall_mem_append.mp reached
    exact List.forall_mem_append.mpr ⟨first front, second back⟩

/-- A local rule that settles what it rewrites settles all members of a class. -/
theorem siteLaw_brings (isLocal : rule.IsLocal wants replace?)
    (settles : Rule.Settles (Rule.rewrite wants replace?) plain settled) (fields : List String) :
    SiteLaw [rule] (·.requests = []) (Rule.rewrite wants replace?) (fun _ _ => True) fields
      (Brings plain settled) where
  toGathers := gathers_brings
  offersExpr := isLocal.yields_offerExpr
  offersBlock := isLocal.yields_offerBlock
  same _ := trivial
  keeps _ := trivial
  deep place expr bottom reached := by
    rw [expr.sites_eq_cons] at reached
    exact absurd (reached _ List.mem_cons_self).1 (Nat.not_lt.mpr bottom)
  node {place count before rebuilt} _ parts brings reached := by
    rw [before.sites_eq_cons] at reached
    obtain ⟨⟨-, start⟩, inside⟩ := List.forall_mem_cons.mp reached
    exact settles.node parts.kept start (brings inside)

mutual

/-- A visit settles all expressions of a class. -/
theorem brings_visitClass (isLocal : rule.IsLocal wants replace?)
    (settles : Rule.Settles (Rule.rewrite wants replace?) plain settled) :
    ∀ (before : ClassDecl) {depth : Nat} {scope : Scope} {after : ClassDecl} {progress last : Progress},
      (visitClass [rule] slack depth scope before).run progress = .ok after last →
      ∀ place : Place, maxDepth ≤ place.level + depth →
        Brings plain settled (before.sites place) (after.sites place)
  | .decl header fields methods nested, depth, scope, after, progress, last => by
    intro run place enough
    obtain ⟨declared, offered, initialized, seen, called, stop, others, runFields, runInitializers,
      runMethods, runNested, rfl⟩ := run_visitClass_eq_ok.mp run
    have law := siteLaw_brings isLocal settles place.fields
    -- The fields are offered in vain, and none are requested.
    obtain ⟨seesOffered, _, -, rfl⟩ := isLocal.yields_visitFields _ fields _ _ _ rfl runFields
    obtain ⟨seesInitialized, _, -, onInitializers⟩ :=
      Yields.mapList _ (fun field _ => law.visitInitializer depth field) _ _ _
        (show (offered.seeFields declared).requests = [] from seesOffered) runInitializers
    obtain ⟨seesCalled, _, -, onMethods⟩ :=
      Yields.mapList _ (fun method _ => law.visitMethod depth method) _ _ _ seesInitialized runMethods
    rw [seesCalled]
    refine gathers_brings.append (gathers_brings.flatMap ?_) (gathers_brings.append
      (gathers_brings.flatMap ?_)
      (brings_visitNested isLocal settles nested runNested place (by omega)))
    · exact onInitializers.forall₂ fun _ _ _ follows => follows.2.2 place rfl enough
    · exact onMethods.forall₂ fun _ _ _ follows => follows place rfl enough

/-- A visit settles all expressions of nested classes. -/
theorem brings_visitNested (isLocal : rule.IsLocal wants replace?)
    (settles : Rule.Settles (Rule.rewrite wants replace?) plain settled) :
    ∀ (nested : List ClassDecl) {depth : Nat} {scope : Scope} {result : List ClassDecl}
      {progress last : Progress},
      (visitNested [rule] slack depth scope nested).run progress = .ok result last →
      ∀ place : Place, maxDepth ≤ place.level + 1 + depth →
        Brings plain settled (ClassDecl.sitesList place nested) (ClassDecl.sitesList place result)
  | [], depth, scope, result, progress, last => by
    intro run
    rw [visitNested] at run
    cases run
    exact fun _ _ => gathers_brings.nil
  | first :: rest, depth, scope, result, progress, last => by
    intro run
    rw [visitNested] at run
    obtain ⟨visited, middle, runFirst, run⟩ := run_bind_eq_ok.mp run
    obtain ⟨others, stop, runRest, run⟩ := run_bind_eq_ok.mp run
    cases run
    intro place enough
    rw [ClassDecl.sitesList, ClassDecl.sitesList]
    refine gathers_brings.append (fun reached => ?_)
      (brings_visitNested isLocal settles rest runRest place enough)
    -- What an expression is does not depend on the names around it.
    exact visited.throughout_sites
      (brings_visitClass isLocal settles first runFirst (place.within first) enough reached)

end

/-- **After one pass all expressions are settled**, if they are plain and the pass reaches all of
them. -/
theorem settled_visitUnit (isLocal : rule.IsLocal wants replace?)
    (settles : Rule.Settles (Rule.rewrite wants replace?) plain settled)
    {unit visited : CompilationUnit} {progress after : Progress}
    (run : (visitUnit [rule] slack unit).run progress = .ok visited after)
    (reached : ∀ site ∈ unit.sites, site.level < maxDepth ∧ plain site.expr) :
    Throughout settled visited.sites := by
  obtain ⟨classes, runClasses, rfl⟩ := run_visitUnit_eq_ok.mp run
  rw [CompilationUnit.sites, classes_settleImports]
  refine gathers_brings.flatMap ((forall₂_of_run_mapM runClasses).imp ?_) reached
  rintro declared other ⟨start, stop, runClass⟩
  exact brings_visitClass isLocal settles declared runClass {} (by decide)

end Visits

end Pass

/-- **The second pass has nothing to do.** A local rule that settles what it rewrites is done after one
pass over a unit whose expressions are plain and not nested too deep: an engine with this rule and a
budget of two passes has an outcome after at most two. -/
theorem Engine.transform_of_settles {rule : Rule} {wants : Expr → Bool}
    {replace? : Expr → Option Replacement} {plain settled : Expr → Prop}
    (isLocal : rule.IsLocal wants replace?)
    (settles : Rule.Settles (Rule.rewrite wants replace?) plain settled) {engine : Engine}
    (single : engine.rules = [rule]) (budget : 2 ≤ engine.maxCycles) (statistics : Statistics)
    {unit : CompilationUnit}
    (reached : ∀ site ∈ unit.sites, site.level < Pass.maxDepth ∧ plain site.expr) :
    ∃ outcome, (engine.transform statistics unit).1 = .ok outcome ∧ outcome.summary.cycles ≤ 2 := by
  have answers : ∀ other ∈ engine.rules, Pass.Answers other := by
    rw [single]
    exact List.forall_mem_singleton.mpr isLocal.answers
  obtain ⟨remaining, enough⟩ := Nat.exists_eq_add_of_le' budget
  obtain ⟨visited, after, run⟩ := Pass.succeeds_visitUnit answers unit { statistics }
  have first : engine.cycle statistics unit = (.ok (visited, after.replacements), after.statistics) := by
    rw [cycle, run]
  -- The second pass meets settled expressions only.
  rw [single] at run
  have quiet := Pass.settled_visitUnit isLocal settles run reached
  obtain ⟨again, stop, runAgain⟩ :=
    Pass.succeeds_visitUnit answers visited { statistics := after.statistics }
  have second : engine.cycle after.statistics visited = (.ok (again, 0), stop.statistics) := by
    have heed : ∀ other ∈ engine.rules,
        other.Heeds fun expr => Rule.rewrite wants replace? expr = expr := by
      rw [single]
      exact List.forall_mem_singleton.mpr isLocal.heeds
    obtain ⟨-, count, counted, rfl⟩ := Pass.spares_visitUnit heed
      (fun site member => settles.fixed (quiet site member)) _ _ _ trivial runAgain
    rw [cycle, runAgain]
    exact congrArg (fun count => (Except.ok (again, count), stop.statistics)) counted
  rw [transform, enough, transformFrom, first]
  cases after.replacements with
  | zero => exact ⟨_, rfl, by simp [enough]⟩
  | succ count =>
    change ∃ outcome, (engine.transformFrom unit (remaining + 1) after.statistics visited
      (0 + (count + 1))).1 = .ok outcome ∧ _
    rw [transformFrom, second]
    exact ⟨_, rfl, by simp [enough]⟩

end LogCalls
