import LogCalls.Proofs.Engine.SiteLaw
import LogCalls.Proofs.Migration.Rewrites

/-! # What a pass makes of the uses of loggers

A pass that migrates loggers keeps the shape of every expression. What it makes of the sites in a method
can be argued for one expression whose parts have been visited. -/

namespace LogCalls

namespace Migrate

variable {settings : Migrate}

/-! ## Shapes -/

/-- A call that logs, or a check, gives way to a call with a primitive type. -/
def Serves (old new : Expr) : Prop :=
  old.usesLogger = true ∧ ∃ kind, new.staticType = some (.primitive kind)

theorem primitive_serves : Expr.Primitive Serves := fun _ _ serves => serves.2

/-- The shape of the expression is kept, and all of it if evaluating it does nothing. -/
structure Kept (before after : Expr) : Prop where
  alike : before.Alike Serves after
  pure : before.isPure = true → after = before

/-- The shapes of the expressions are kept one by one. -/
theorem alikeList_of_kept {count : Nat} {before after : List Expr}
    (each : Pass.Each (fun _ => Kept) count before after) :
    Expr.AlikeList Serves before after := by
  induction each with
  | nil => exact .nil
  | cons kept _ ih => exact .cons kept.alike ih

/-- An expression keeps its shape if its parts do. -/
theorem kept_of_rebuilt {onBlock : Nat → List Statement → List Statement → Prop} {count : Nat}
    {before after : Expr} (rebuilt : Pass.Rebuilt (fun _ => Kept) onBlock count before after) :
    Kept before after := by
  cases rebuilt with
  | literal value => exact ⟨.same _, fun _ => rfl⟩
  | identifier name type => exact ⟨.same _, fun _ => rfl⟩
  | typeRef fqn => exact ⟨.same _, fun _ => rfl⟩
  | classLiteral fqn => exact ⟨.same _, fun _ => rfl⟩
  | fieldAccess name type target =>
    exact ⟨.fieldAccess name type target.alike, fun pure => by rw [target.pure pure]⟩
  | methodCall name method select arguments => exact ⟨.methodCall (.inl rfl), nofun⟩
  | binary operator type left right => exact ⟨.binary operator type left.alike right.alike, nofun⟩
  | newClass type arguments => exact ⟨.newClass type _ _, nofun⟩
  | newArray element elements =>
    -- An array keeps its length and the shapes of its elements; for calls only the type counts.
    have alike := alikeList_of_kept elements
    exact ⟨.newArray element alike.length alike.each, nofun⟩
  | lambda parameters body => exact ⟨.lambda parameters _ _, nofun⟩
  | parens inner => exact ⟨.parens inner.alike, fun pure => by rw [inner.pure pure]⟩

/-- Which method is called depends on the receiver only for its type. -/
theorem signature?_congr {select other : Expr} (same : other.staticType = select.staticType)
    (name : String) (arguments others : List Expr) (method : Option ResolvedMethod) :
    (Expr.methodCall (some other) name others method).signature? =
      (Expr.methodCall (some select) name arguments method).signature? := by
  cases method with
  | none => rfl
  | some method =>
    simp only [Expr.signature?, resolveSignature?, Option.bind_eq_bind, Option.bind_some, same]

/-! ## Offers -/

/-- The expression after it is offered to the rule. -/
def carry (settings : Migrate) (scope : Scope) (expr : Expr) : Expr :=
  ((settings.replace? expr scope).map (·.expr)).getD expr

/-- An expression that is offered stays as it is, or it is a use of a logger that is carried over. -/
theorem carry_cases (settings : Migrate) (scope : Scope) (expr : Expr) :
    (settings.replace? expr scope = none ∧ settings.carry scope expr = expr) ∨
      ∃ select name arguments method receiver newName others written field,
        expr = .methodCall (some select) name arguments (some method) ∧
        settings.carry scope expr = .methodCall (some receiver) newName others (some written) ∧
        scope.fieldFor? select = some field ∧
        field.type.typeName = settings.target.loggerType ∧
        settings.CarriesOver select name arguments method receiver newName others written := by
  unfold carry
  cases replaced : settings.replace? expr scope with
  | none => exact .inl ⟨rfl, rfl⟩
  | some replacement => exact .inr (carriesOver_of_replace? replaced)

/-- An expression whose parts keep their shapes keeps its shape when it is offered. -/
theorem kept_carry {onBlock : Nat → List Statement → List Statement → Prop} {count : Nat}
    {before rebuilt : Expr} (parts : Pass.Rebuilt (fun _ => Kept) onBlock count before rebuilt)
    (scope : Scope) : Kept before (settings.carry scope rebuilt) := by
  obtain ⟨-, same⟩ | ⟨select, name, arguments, method, receiver, newName, others, written, field, rfl,
    same, -, -, carries⟩ := settings.carry_cases scope rebuilt
  · rw [same]
    exact kept_of_rebuilt parts
  · rw [same]
    cases parts with
    | methodCall name method visited arguments =>
      cases visited with
      | some kept =>
        -- The logger is a name or a field, and its type is kept.
        rename_i old
        have type : select.staticType = old.staticType := by
          have alike := kept.alike
          obtain ⟨_, _, rfl, -⟩ | ⟨_, _, _, rfl, -⟩ := Expr.retyped?_cases carries.retyped
          · cases alike
            rfl
          · cases alike <;> rfl
        refine ⟨.methodCall (.inr ⟨?_, carries.primitive⟩), nofun⟩
        rw [Expr.usesLogger, ← signature?_congr type]
        exact carries.uses

/-- What a part of a pass goes by: the scope, and that no fields have been requested. -/
def Sees (scope : Scope) (progress : Progress) : Prop :=
  progress.scope = scope ∧ progress.requests = []

theorem sees_of_uncounted_eq {scope : Scope} {progress after : Progress}
    (same : after.uncounted = progress.uncounted) (sees : Sees scope progress) : Sees scope after :=
  ⟨(Progress.scope_eq_of_uncounted_eq same).trans sees.1,
    (Progress.requests_eq_of_uncounted_eq same).trans sees.2⟩

/-- An expression is offered to the rule, which requests no fields. -/
theorem yields_offerExpr (scope : Scope) (depth : Nat) (expr : Expr) :
    Pass.Yields (Sees scope) (fun _ visited => visited = settings.carry scope expr)
      ([settings.rule].foldlM (Pass.offerExpr depth) expr) := by
  refine Pass.Yields.offerSingle ?_
  intro progress visited after sees run
  rw [Pass.run_offerExpr] at run
  have answer : (if settings.rule.applies expr (progress.scope.goDown depth) then
      settings.rule.onExpr expr (progress.scope.goDown depth) else .ok none) =
      .ok (settings.replace? expr scope) := by
    split
    · exact congrArg (fun scope => Except.ok (settings.replace? expr (scope.goDown depth))) sees.1
    · rename_i unresolved
      -- What is replaced is a call whose method is known.
      obtain ⟨declined, -⟩ | ⟨_, _, _, _, _, _, _, _, _, rfl, -⟩ := settings.carry_cases scope expr
      · rw [declined]
      · exact absurd rfl unresolved
  -- From here on the offer is settled like any other.
  rw [answer] at run
  obtain ⟨_, ⟨⟩, visits⟩ := Pass.settle_returns run
  obtain ⟨-, same⟩ | ⟨replacement, replaced, -, -, rfl⟩ := Pass.settle_eq_ok (by
    intro start
    split <;> rfl) run
  · exact ⟨sees_of_uncounted_eq same sees, 0, Progress.replacements_eq_of_uncounted_eq same, visits⟩
  · obtain ⟨use, field, -, -, -, emitted⟩ := replace?_cases (Except.ok.inj replaced)
    obtain ⟨-, -, noField, -⟩ := emit?_cases emitted
    refine ⟨?_, 1, by simp, visits⟩
    rw [Sees, Progress.absorb, noField]
    exact sees

theorem yields_offerBlock (scope : Scope) (depth : Nat) (block : List Statement) :
    Pass.Yields (Sees scope) (fun _ visited => visited = block)
      ([settings.rule].foldlM (Pass.offerBlock depth) block) := by
  refine Pass.Yields.offerSingle (Pass.yields_offerBlock
    (fun _ _ same sees => sees_of_uncounted_eq same.symm sees) rfl fun _ _ _ answer => ?_)
  cases answer

/-! ## Sites -/

/-- A relation between sites before and after a pass that can be put together, holds of what the pass
does not reach, and goes from the parts of an expression to the whole. -/
structure SiteLaw (settings : Migrate) (scope : Scope) (fields : List String)
    (related : List Site → List Site → Prop) : Prop extends Pass.Gathers related where
  deep (place : Place) (expr : Expr) : Pass.maxDepth ≤ place.level →
    related (expr.sites place) (expr.sites place)
  node {place : Place} {count : Nat} {before rebuilt : Expr} : place.fields = fields →
    Pass.Rebuilt (fun _ => Pass.FollowsPart Kept related fields (place.level + 1)) (fun _ _ _ => True) count
      before rebuilt →
    related (before.parts place) (rebuilt.parts place) →
    related (before.sites place) ((settings.carry scope rebuilt).sites place)

namespace SiteLaw

variable {slack : Nat} {scope : Scope} {fields : List String}
  {related : List Site → List Site → Prop}

/-- Offers to the rule carry expressions over and leave blocks alone. -/
theorem onPass (law : SiteLaw settings scope fields related) :
    Pass.SiteLaw [settings.rule] (Sees scope) (settings.carry scope) Kept fields related where
  toGathers := law.toGathers
  offersExpr := yields_offerExpr scope
  offersBlock := yields_offerBlock scope
  same expr := ⟨.same expr, fun _ => rfl⟩
  keeps rebuilt := kept_carry rebuilt scope
  deep := law.deep
  node := law.node

/-- The sites of a method are related when it is visited. -/
theorem visitMethod (law : SiteLaw settings scope fields related) (depth : Nat) (method : MethodDecl) :
    Pass.Yields (Sees scope) (fun _ visited => ∀ place : Place, place.fields = fields →
        Pass.maxDepth ≤ place.level + depth → related (method.sites place) (visited.sites place))
      (Pass.visitMethod [settings.rule] slack depth method) :=
  law.onPass.visitMethod depth method

/-- The sites of a field are related when its initializer is visited. Only the initializer changes. -/
theorem visitInitializer (law : SiteLaw settings scope fields related) (depth : Nat)
    (field : FieldDecl) :
    Pass.Yields (Sees scope) (fun _ visited => visited.name = field.name ∧ visited.type = field.type ∧
        ∀ place : Place, place.fields = fields → Pass.maxDepth ≤ place.level + depth →
          related (field.sites place) (visited.sites place))
      (Pass.visitInitializer [settings.rule] slack depth field) :=
  law.onPass.visitInitializer depth field

end SiteLaw

end Migrate

end LogCalls
