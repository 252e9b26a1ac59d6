import LogCalls.Proofs.Migration.Classes

/-! # The uses of a field

The check that a field can move looks at the sites of its class: every reference to the field is the
receiver of a call that can be carried over, and no local variable hides it. A pass looks the field up in
the scope that it has come to, and both agree on what a name refers to. -/

namespace LogCalls

/-- Parentheses do nothing. -/
theorem Expr.isPure_bare (expr : Expr) : expr.bare.isPure = expr.isPure := by
  fun_induction Expr.bare expr with
  | case1 inner ih => exact ih
  | case2 => rfl

/-- Where no nested class has a field of this name, no local variable has the name either. -/
def Place.Shows (name : String) (place : Place) : Prop := name ∉ place.fields → name ∉ place.locals

namespace Migrate

variable {fields : List FieldDecl} {settings : Migrate} {field : FieldName} {place : Place}

/-! ## References to a field -/

/-- The expressions that refer to the field. A bare name does not where a nested class declares a field
of that name. -/
def FieldName.reference (field : FieldName) : Reference := fun fields expr =>
  refersTo field (fields.contains field.name) expr

/-- A field is referred to by its bare name, or by its name in its class. -/
theorem refersTo_iff {shadowed : Bool} {expr : Expr} : refersTo field shadowed expr = true ↔
    (∃ type, expr.bare = .identifier field.name type ∧ shadowed = false) ∨
      ∃ type, expr.bare = .fieldAccess (.typeRef field.owner) field.name type := by
  unfold refersTo
  split
  · rename_i name type shape
    rw [Bool.and_eq_true, Bool.not_eq_true', beq_iff_eq]
    refine ⟨fun ⟨visible, same⟩ => .inl ⟨type, same ▸ shape, visible⟩, ?_⟩
    rintro (⟨_, same, visible⟩ | ⟨_, same⟩)
    · cases shape.symm.trans same
      exact ⟨visible, rfl⟩
    · cases shape.symm.trans same
  · rename_i fqn name type shape
    rw [Bool.and_eq_true, beq_iff_eq, beq_iff_eq]
    refine ⟨fun ⟨same, owned⟩ => .inr ⟨type, same ▸ owned ▸ shape⟩, ?_⟩
    rintro (⟨_, same, -⟩ | ⟨_, same⟩)
    · cases shape.symm.trans same
    · cases shape.symm.trans same
      exact ⟨rfl, rfl⟩
  · rename_i notName notField
    refine ⟨nofun, ?_⟩
    rintro (⟨type, shape, -⟩ | ⟨type, shape⟩)
    · exact (notName _ _ shape).elim
    · exact (notField _ _ _ shape).elim

/-- The name of a field is a lawful reference. -/
theorem FieldName.lawful (field : FieldName) {target : Framework}
    (apart : ∀ levelType, target.levelType? = some levelType → levelType ≠ field.owner) :
    field.reference.Lawful target where
  pure through := by
    rw [← Expr.isPure_bare]
    obtain ⟨type, shape, -⟩ | ⟨type, shape⟩ := refersTo_iff.mp through <;> rw [shape] <;> rfl
  parens := rfl
  retyped {fields type expr other} retyped := by
    obtain ⟨_, _, rfl, rfl⟩ | ⟨target, _, _, rfl, rfl⟩ := Expr.retyped?_cases retyped
    · rfl
    · cases target <;> rfl
  literal := rfl
  typeRef := rfl
  classLiteral := rfl
  constant {fields levelType constant} known := by
    -- A level constant looks like a static field of the class of levels.
    refine Bool.eq_false_iff.mpr fun through => ?_
    obtain ⟨type, shape, -⟩ | ⟨type, shape⟩ := refersTo_iff.mp through
    · cases shape
    · cases shape
      exact apart _ known rfl

/-! ## What the check looks at -/

/-- An expression that is neither a call nor a reference uses no variable. -/
theorem movable_of_other {refers : Reference} {site : Site} (other : site.expr.isCall = false)
    (unnamed : refers site.fields site.expr = false) : refers.Movable settings site := by
  refine ⟨fun through => ?_, fun head found => ?_⟩
  · rw [unnamed] at through
    cases through
  · obtain ⟨arguments, same, -⟩ := Expr.headThrough?_eq_some found
    rw [same] at other
    cases other

/-- What passes the check is no reference itself. -/
theorem refersTo_of_exprMigrates {shadowed : Bool} : ∀ {expr : Expr},
    exprMigrates settings field shadowed expr = true → refersTo field shadowed expr = false
  | .identifier name type, migrates => by
    rw [exprMigrates] at migrates
    change (!shadowed && name == field.name) = false
    revert migrates
    cases shadowed <;> simp
  | .fieldAccess target name type, migrates => by
    rw [exprMigrates, Bool.and_eq_true, Bool.not_eq_true'] at migrates
    exact migrates.1
  | .parens inner, migrates => by
    rw [exprMigrates] at migrates
    have unnamed : refersTo field shadowed inner = false := refersTo_of_exprMigrates migrates
    exact unnamed
  | .literal _, _ | .typeRef _, _ | .methodCall .., _ | .binary .., _ | .newClass .., _
  | .newArray .., _ | .classLiteral _, _ | .lambda .., _ => rfl

/-- What the check makes sure of at a site of what stands at a place: a use of the field there can be
carried over, and no variable that is declared on the way there hides the field. -/
def FieldName.Checked (field : FieldName) (settings : Migrate) (place : Place) (site : Site) : Prop :=
  field.reference.Movable settings site ∧ (place.Shows field.name → site.Shows field.name)

/-- The receiver of a call that can be carried over is a name or a field, and stands where it should. -/
theorem checked_receiver {select : Expr} {name : String} {arguments : List Expr}
    {method : Option ResolvedMethod}
    (planned : (settings.plan? (.methodCall (some select) name arguments method)).isSome = true)
    (through : field.reference place.fields select = true) :
    ∀ site ∈ select.sites place.receiver, field.Checked settings place site := by
  obtain ⟨use, planned⟩ := Option.isSome_iff_exists.mp planned
  obtain ⟨-, receiver, retyped⟩ := plan?_receiver planned
  obtain ⟨name, type, rfl, -⟩ | ⟨target, name, type, rfl, -⟩ := Expr.retyped?_cases retyped
  · exact List.forall_mem_singleton.mpr ⟨⟨fun _ => rfl, nofun⟩, id⟩
  · obtain ⟨_, shape, -⟩ | ⟨_, shape⟩ := refersTo_iff.mp through
    · cases shape
    · cases shape
      exact List.forall_mem_cons.mpr ⟨⟨⟨fun _ => rfl, nofun⟩, id⟩,
        List.forall_mem_singleton.mpr ⟨movable_of_other rfl rfl, id⟩⟩

/-- Names that are declared on the way do not hide the field if the check has looked at them. -/
theorem checked_of_binding {names : List String} {sites : List Site}
    (seen : field.name ∈ place.fields ∨ field.name ∉ names)
    (each : ∀ site ∈ sites, field.Checked settings (place.binding names) site) :
    ∀ site ∈ sites, field.Checked settings place site := by
  intro site member
  refine ⟨(each site member).1, fun shows => (each site member).2 fun visible hidden => ?_⟩
  -- What hides the field is declared on the way, or was declared outside.
  obtain declared | outside := List.mem_append.mp hidden
  · exact seen.elim visible (· declared)
  · exact shows visible outside

/-- What the check asks of a name, in words. -/
theorem seen_of_check {test : Bool} {names : List String}
    (check : (place.fields.contains field.name || test) = true)
    (means : test = true → field.name ∉ names) : field.name ∈ place.fields ∨ field.name ∉ names := by
  rw [Bool.or_eq_true, List.contains_iff_mem] at check
  exact check.imp_right means

/-- Another name does not hide the field. -/
theorem not_mem_of_bne {name : String} (apart : (name != field.name) = true) : field.name ∉ [name] := by
  rw [List.mem_singleton]
  exact (bne_iff_ne.mp apart).symm

/-- A name that a statement declares for those after it does not hide the field. -/
theorem seen_of_statementMigrates {statement : Statement}
    (migrates : statementMigrates settings field (place.fields.contains field.name) statement = true) :
    field.name ∈ place.fields ∨ field.name ∉ statement.declared := by
  cases statement with
  | declaration name type initial =>
    cases initial with
    | none => exact seen_of_check migrates not_mem_of_bne
    | some initial =>
      rw [statementMigrates, Bool.and_eq_true] at migrates
      exact seen_of_check migrates.1 not_mem_of_bne
  | _ => exact .inr nofun

mutual

/-- The check looks at every site of an expression. -/
theorem checked_of_exprMigrates (place : Place) : ∀ expr : Expr,
    exprMigrates settings field (place.fields.contains field.name) expr = true →
      ∀ site ∈ expr.sites place, field.Checked settings place site
  | .literal value, _ => List.forall_mem_singleton.mpr ⟨movable_of_other rfl rfl, id⟩
  | .identifier name type, migrates =>
    List.forall_mem_singleton.mpr ⟨movable_of_other rfl (refersTo_of_exprMigrates migrates), id⟩
  | .typeRef fqn, _ => List.forall_mem_singleton.mpr ⟨movable_of_other rfl rfl, id⟩
  | .classLiteral fqn, _ => List.forall_mem_singleton.mpr ⟨movable_of_other rfl rfl, id⟩
  | .fieldAccess target name type, migrates => by
    have unnamed := refersTo_of_exprMigrates migrates
    rw [exprMigrates, Bool.and_eq_true] at migrates
    exact List.forall_mem_cons.mpr ⟨⟨movable_of_other rfl unnamed, id⟩,
      checked_of_exprMigrates place.inner target migrates.2⟩
  | .methodCall (some select) name arguments method, migrates => by
    rw [exprMigrates, Bool.and_eq_true] at migrates
    obtain ⟨onSelect, onArguments⟩ := migrates
    refine List.forall_mem_cons.mpr ⟨⟨⟨nofun, fun head found => ?_⟩, id⟩, List.forall_mem_append.mpr
      ⟨?_, checked_of_exprsMigrate place.argument arguments onArguments⟩⟩
    · -- A call through the field has to be one that can be carried over.
      split at onSelect
      · exact .inr onSelect
      · rename_i other
        obtain ⟨_, same, through, -⟩ := Expr.headThrough?_eq_some found
        cases same
        exact (other through).elim
    · -- The check does not go into a receiver that is the field itself.
      split at onSelect
      · rename_i through
        exact checked_receiver onSelect through
      · exact checked_of_exprMigrates place.receiver select onSelect
  | .methodCall none name arguments method, migrates =>
    List.forall_mem_cons.mpr ⟨⟨⟨nofun, nofun⟩, id⟩,
      checked_of_exprsMigrate place.argument arguments migrates⟩
  | .binary operator left right type, migrates => by
    rw [exprMigrates, Bool.and_eq_true] at migrates
    exact List.forall_mem_cons.mpr ⟨⟨movable_of_other rfl rfl, id⟩, List.forall_mem_append.mpr
      ⟨checked_of_exprMigrates place.inner left migrates.1,
        checked_of_exprMigrates place.inner right migrates.2⟩⟩
  | .newClass type arguments, migrates =>
    List.forall_mem_cons.mpr ⟨⟨movable_of_other rfl rfl, id⟩,
      checked_of_exprsMigrate place.inner arguments migrates⟩
  | .newArray element elements, migrates =>
    List.forall_mem_cons.mpr ⟨⟨movable_of_other rfl rfl, id⟩,
      checked_of_exprsMigrate place.inner elements migrates⟩
  | .lambda parameters body, migrates => by
    rw [exprMigrates, Bool.and_eq_true] at migrates
    have seen : field.name ∈ place.inner.fields ∨ field.name ∉ parameters :=
      seen_of_check migrates.1 fun free => by simpa using free
    exact List.forall_mem_cons.mpr ⟨⟨movable_of_other rfl rfl, id⟩, checked_of_binding seen
      (checked_of_blockMigrates (place.inner.binding parameters) body migrates.2)⟩
  | .parens inner, migrates => by
    have unnamed := refersTo_of_exprMigrates migrates
    rw [exprMigrates] at migrates
    exact List.forall_mem_cons.mpr ⟨⟨movable_of_other rfl unnamed, id⟩,
      checked_of_exprMigrates place.bare inner migrates⟩

/-- The same for arguments. -/
theorem checked_of_exprsMigrate (place : Place) : ∀ exprs : List Expr,
    exprsMigrate settings field (place.fields.contains field.name) exprs = true →
      ∀ site ∈ Expr.sitesList place exprs, field.Checked settings place site
  | [], _ => nofun
  | expr :: rest, migrates => by
    rw [exprsMigrate, Bool.and_eq_true] at migrates
    exact List.forall_mem_append.mpr ⟨checked_of_exprMigrates place expr migrates.1,
      checked_of_exprsMigrate place rest migrates.2⟩

/-- The same for statements. -/
theorem checked_of_statementMigrates (place : Place) : ∀ statement : Statement,
    statementMigrates settings field (place.fields.contains field.name) statement = true →
      ∀ site ∈ statement.sites place, field.Checked settings place site
  | .expression value, migrates => checked_of_exprMigrates place value migrates
  | .declaration name type (some initial), migrates => by
    rw [statementMigrates, Bool.and_eq_true] at migrates
    exact checked_of_exprMigrates place initial migrates.2
  | .declaration name type none, _ => nofun
  | .block body, migrates => checked_of_blockMigrates place body migrates
  | .conditional condition thenBranch (some elseBranch), migrates => by
    rw [statementMigrates, Bool.and_eq_true, Bool.and_eq_true] at migrates
    exact List.forall_mem_append.mpr ⟨checked_of_exprMigrates place condition migrates.1.1,
      List.forall_mem_append.mpr ⟨checked_of_blockMigrates place thenBranch migrates.1.2,
        checked_of_blockMigrates place elseBranch migrates.2⟩⟩
  | .conditional condition thenBranch none, migrates => by
    rw [statementMigrates, Bool.and_eq_true] at migrates
    exact List.forall_mem_append.mpr ⟨checked_of_exprMigrates place condition migrates.1,
      checked_of_blockMigrates place thenBranch migrates.2⟩
  | .guarded body catches (some finallyBlock), migrates => by
    rw [statementMigrates, Bool.and_eq_true, Bool.and_eq_true] at migrates
    exact List.forall_mem_append.mpr ⟨checked_of_blockMigrates place body migrates.1.1,
      List.forall_mem_append.mpr ⟨checked_of_catchesMigrate place catches migrates.1.2,
        checked_of_blockMigrates place finallyBlock migrates.2⟩⟩
  | .guarded body catches none, migrates => by
    rw [statementMigrates, Bool.and_eq_true] at migrates
    exact List.forall_mem_append.mpr ⟨checked_of_blockMigrates place body migrates.1,
      checked_of_catchesMigrate place catches migrates.2⟩
  | .returning (some value), migrates => checked_of_exprMigrates place value migrates
  | .returning none, _ => nofun

/-- The same for blocks. -/
theorem checked_of_blockMigrates (place : Place) : ∀ block : List Statement,
    blockMigrates settings field (place.fields.contains field.name) block = true →
      ∀ site ∈ Statement.sitesList place block, field.Checked settings place site
  | [], _ => nofun
  | statement :: rest, migrates => by
    rw [blockMigrates, Bool.and_eq_true] at migrates
    exact List.forall_mem_append.mpr ⟨checked_of_statementMigrates place statement migrates.1,
      checked_of_binding (seen_of_statementMigrates migrates.1)
        (checked_of_blockMigrates (place.binding statement.declared) rest migrates.2)⟩

/-- The same for catch clauses. -/
theorem checked_of_catchesMigrate (place : Place) : ∀ catches : List CatchClause,
    catchesMigrate settings field (place.fields.contains field.name) catches = true →
      ∀ site ∈ CatchClause.sitesList place catches, field.Checked settings place site
  | [], _ => nofun
  | .handler parameter type body :: rest, migrates => by
    rw [catchesMigrate, Bool.and_eq_true, Bool.and_eq_true] at migrates
    have seen : field.name ∈ place.fields ∨ field.name ∉ [parameter] :=
      seen_of_check migrates.1.1 not_mem_of_bne
    exact List.forall_mem_append.mpr
      ⟨checked_of_binding seen
          (checked_of_blockMigrates (place.binding [parameter]) body migrates.1.2),
        checked_of_catchesMigrate place rest migrates.2⟩

end

/-- The same for other fields. -/
theorem checked_of_fieldsMigrate {owner : String}
    (migrates : fieldsMigrate settings field (place.fields.contains field.name) owner fields = true) :
    ∀ other ∈ fields, ¬ (owner = field.owner ∧ other.name = field.name) →
      ∀ site ∈ other.sites place, field.Checked settings place site := by
  intro other member apart site inside
  rw [fieldsMigrate, List.all_eq_true] at migrates
  -- The field itself is left out of the check.
  have initial := migrates other (List.mem_filter.mpr ⟨member, by
    simp only [Bool.not_eq_true', ← Bool.not_eq_true, Bool.and_eq_true, beq_iff_eq]
    exact apart⟩)
  unfold FieldDecl.sites at inside
  cases known : other.initializer with
  | none =>
    rw [known] at inside
    cases inside
  | some value =>
    rw [known] at initial inside
    exact checked_of_exprMigrates place.initial value initial site inside

/-- The same for methods. -/
theorem checked_of_methodsMigrate {methods : List MethodDecl}
    (migrates : methodsMigrate settings field (place.fields.contains field.name) methods = true) :
    ∀ site ∈ methods.flatMap (·.sites place), field.Checked settings place site := by
  rw [methodsMigrate, List.all_eq_true] at migrates
  intro site member
  obtain ⟨method, listed, inside⟩ := List.mem_flatMap.mp member
  have body := migrates method listed
  rw [Bool.and_eq_true] at body
  -- Parameters are looked at even where the field is hidden by another one.
  have free : field.name ∉ method.parameters.map (·.name) := by
    intro hidden
    obtain ⟨parameter, listed, same⟩ := List.mem_map.mp hidden
    have any : method.parameters.any (·.name == field.name) = true :=
      List.any_eq_true.mpr ⟨parameter, listed, beq_iff_eq.mpr same⟩
    rw [any] at body
    cases body.1
  exact checked_of_binding (.inr free) (checked_of_blockMigrates (place.binding _) method.body body.2)
    site inside

/-- A field of a nested class takes a bare name away. -/
theorem contains_within (name : String) (place : Place) (declared : ClassDecl) :
    (place.within declared).fields.contains name =
      (place.fields.contains name || declared.fields.any (·.name == name)) := by
  rw [Bool.eq_iff_iff]
  simp [Place.within, or_comm]

mutual

/-- The check looks at every site of a nested class. -/
theorem checked_of_nestedUse (place : Place) : ∀ declared : ClassDecl,
    usesMigrate settings field (place.fields.contains field.name) declared = true →
      (∀ inner ∈ declared.all, inner.fqn ≠ field.owner) →
      ∀ site ∈ declared.sites place, field.Checked settings place site
  | .decl header fields methods nested, migrates, others => by
    rw [usesMigrate, Bool.and_eq_true, Bool.and_eq_true] at migrates
    obtain ⟨⟨onFields, onMethods⟩, onNested⟩ := migrates
    have apart : header.fqn ≠ field.owner := others _ List.mem_cons_self
    refine List.forall_mem_append.mpr ⟨fun site member => ?_, List.forall_mem_append.mpr
      ⟨checked_of_methodsMigrate onMethods, checked_of_nestedMigrate place nested onNested
        fun inner member => others inner (List.mem_cons_of_mem _ member)⟩⟩
    obtain ⟨other, listed, inside⟩ := List.mem_flatMap.mp member
    exact checked_of_fieldsMigrate onFields other listed (fun both => apart both.1) site inside

/-- The same for nested classes. -/
theorem checked_of_nestedMigrate (place : Place) : ∀ nested : List ClassDecl,
    nestedMigrate settings field (place.fields.contains field.name) nested = true →
      (∀ inner ∈ ClassDecl.allList nested, inner.fqn ≠ field.owner) →
      ∀ site ∈ ClassDecl.sitesList place nested, field.Checked settings place site
  | [], _, _ => nofun
  | first :: rest, migrates, others => by
    rw [nestedMigrate, Bool.and_eq_true] at migrates
    obtain ⟨onFirst, onRest⟩ := migrates
    rw [← contains_within] at onFirst
    -- The local variables around a class are none of the class.
    refine List.forall_mem_append.mpr ⟨fun site member => ?_,
      checked_of_nestedMigrate place rest onRest fun inner member =>
        others inner (List.mem_append_right _ member)⟩
    have checked := checked_of_nestedUse (place.within first) first onFirst
      (fun inner member => others inner (List.mem_append_left _ member)) site member
    exact ⟨checked.1, fun _ => checked.2 fun _ => List.not_mem_nil⟩

end

/-- **The check looks at every site.** If it passes for a field, the uses of the field in the other
fields, in the methods and in the nested classes can be carried over, and no variable hides it there. -/
theorem checked_of_usesMigrate {header : ClassHeader}
    {methods : List MethodDecl} {nested : List ClassDecl}
    (uses : usesMigrate settings field false (.decl header fields methods nested) = true)
    (here : place.fields = [])
    (others : ∀ inner ∈ ClassDecl.allList nested, inner.fqn ≠ field.owner) :
    (∀ other ∈ fields, other.name ≠ field.name →
        ∀ site ∈ other.sites place, field.Checked settings place site) ∧
      (∀ site ∈ methods.flatMap (·.sites place), field.Checked settings place site) ∧
      ∀ site ∈ ClassDecl.sitesList place nested, field.Checked settings place site := by
  have visible : place.fields.contains field.name = false := by
    rw [here]
    rfl
  rw [usesMigrate, ← visible, Bool.and_eq_true, Bool.and_eq_true] at uses
  obtain ⟨⟨onFields, onMethods⟩, onNested⟩ := uses
  exact ⟨fun other member apart =>
      checked_of_fieldsMigrate onFields other member fun both => apart both.2,
    checked_of_methodsMigrate onMethods, checked_of_nestedMigrate place nested onNested others⟩

/-! ## What a pass looks up -/

/-- In a nested class a reference to the field stands for what it stands for outside. -/
theorem fieldFor?_nested {scope : Scope} {fields : List String} {declared : ClassDecl}
    {renewed : List FieldDecl} {expr : Expr} (apart : declared.fqn ≠ field.owner)
    (names : renewed.map (·.name) = declared.fields.map (·.name))
    (through : field.reference (declared.fields.map (·.name) ++ fields) expr = true) :
    field.reference fields expr = true ∧
      ((scope.nested declared).holding renewed).fieldFor? expr = scope.fieldFor? expr := by
  have classes : ((scope.nested declared).holding renewed).classes =
      { ClassScope.ofClass declared with fields := renewed } :: scope.classes := rfl
  -- A bare name is looked up from the inside out, a qualified one by its class.
  obtain ⟨type, shape, visible⟩ | ⟨type, shape⟩ := refersTo_iff.mp through
  · rw [List.contains_append, Bool.or_eq_false_iff] at visible
    refine ⟨refersTo_iff.mpr (.inl ⟨type, shape, visible.2⟩), ?_⟩
    have missing : renewed.find? (·.name == field.name) = none := by
      refine List.find?_eq_none.mpr fun other member same => ?_
      have listed : field.name ∈ renewed.map (·.name) :=
        List.mem_map.mpr ⟨other, member, beq_iff_eq.mp same⟩
      rw [names] at listed
      rw [List.contains_iff_mem.mpr listed] at visible
      cases visible.1
    rw [Scope.fieldFor?, Scope.fieldFor?, shape]
    dsimp only
    rw [classes, List.findSome?_cons, ClassScope.field?, missing]
  · refine ⟨refersTo_iff.mpr (.inr ⟨type, shape⟩), ?_⟩
    rw [Scope.fieldFor?, Scope.fieldFor?, shape]
    dsimp only
    rw [classes, List.find?_cons_of_neg (by simpa [ClassScope.ofClass] using apart)]

/-- What settles does so in inner classes. -/
theorem descends_settles : Descends (fun scope fields => settings.Settles scope fields field.reference)
    fun declared => declared.fqn ≠ field.owner := by
  intro scope fields declared renewed settles apart names expr through
  obtain ⟨outside, same⟩ := fieldFor?_nested apart names through
  rw [same]
  exact settles expr outside

/-- What is unsettled stays so there. -/
theorem descends_unsettled :
    Descends (fun scope fields => settings.Unsettled scope fields field.reference)
      fun declared => declared.fqn ≠ field.owner := by
  intro scope fields declared renewed unsettled apart names expr found through known
  obtain ⟨outside, same⟩ := fieldFor?_nested apart names through
  rw [same] at known
  exact unsettled expr found outside known

/-- Fields are found by their names. -/
theorem find?_of_mem {found : FieldDecl} (member : found ∈ fields)
    (distinct : (fields.map (·.name)).Nodup) : fields.find? (·.name == found.name) = some found := by
  induction fields with
  | nil => cases member
  | cons first rest ih =>
    obtain ⟨apart, distinct⟩ := List.nodup_cons.mp distinct
    obtain rfl | inRest := List.mem_cons.mp member
    · exact List.find?_cons_of_pos (beq_self_eq_true _)
    · -- An earlier field of that name would be a second one.
      have other : (first.name == found.name) = false := by
        refine beq_eq_false_iff_ne.mpr fun same => apart ?_
        exact List.mem_map.mpr ⟨found, inRest, same.symm⟩
      rw [List.find?_cons, other]
      exact ih inRest distinct

/-- In its class the field is what a reference to it stands for. -/
theorem fieldFor?_of_reference {scope : Scope} {declared : List FieldDecl} {expr : Expr}
    {found : FieldDecl} (owned : scope.current.fqn = field.owner) (member : found ∈ declared)
    (named : found.name = field.name) (distinct : (declared.map (·.name)).Nodup)
    (through : field.reference [] expr = true) :
    (scope.holding declared).fieldFor? expr = some found := by
  have first : declared.find? (·.name == field.name) = some found := by
    rw [← named]
    exact find?_of_mem member distinct
  have classes : (scope.holding declared).classes =
      { scope.current with fields := declared } :: scope.enclosing := rfl
  obtain ⟨type, shape, -⟩ | ⟨type, shape⟩ := refersTo_iff.mp through
  · rw [Scope.fieldFor?, shape]
    dsimp only
    rw [classes, List.findSome?_cons, ClassScope.field?, first]
  · rw [Scope.fieldFor?, shape]
    dsimp only
    rw [classes, List.find?_cons_of_pos (by simpa using owned)]
    exact first

end Migrate

end LogCalls
