import LogCalls.Proofs.Engine.Frame
import LogCalls.Proofs.Engine.Simulation
import LogCalls.Proofs.Imports.Rules

/-! # Names stay covered

A unit is covered if it can use the name of every class that it names: because the class needs no import,
is imported, or is declared in the unit. What a pass puts into a unit is covered by the imports that the
pass collects, and no import is dropped while its class is named.

A pass may use a name long before it ends, and it settles the imports at its end. So the imports that it
will have collected are looked at first, and its rules are taken for rules that ask for no others. -/

namespace LogCalls

variable {unit : CompilationUnit}

/-! ## Covered units -/

namespace ClassDecl

mutual

/-- The full names of the class and of all classes that are nested in it. -/
def declaredNames : ClassDecl → List String
  | .decl header _ _ nested => header.fqn :: declaredNamesList nested

/-- The full names of the classes and of all classes that are nested in them. -/
def declaredNamesList : List ClassDecl → List String
  | [] => []
  | first :: rest => first.declaredNames ++ declaredNamesList rest

end

end ClassDecl

namespace CompilationUnit

/-- The unit can use the name of the class: it needs no import, is imported, or is declared in it. -/
def covers (unit : CompilationUnit) (name : String) : Bool :=
  isImplicitlyImported unit.package name || unit.hasImport name ||
    (ClassDecl.declaredNamesList unit.classes).contains name

/-- The unit can use the names of all classes that it names. -/
def isCovered (unit : CompilationUnit) : Bool := unit.referencedTypes.all unit.covers

/-- A unit is covered if each name is. -/
theorem isCovered_iff :
    unit.isCovered = true ↔ ∀ name ∈ unit.references, unit.covers name = true := by
  simp [isCovered, referencedTypes]

end CompilationUnit

/-! ## Nodes -/

/-- All that is named after is known, if all that was named before is. -/
def NamesKept {α : Type} (known : String → Prop) (references : α → List String)
    (before after : α) : Prop :=
  (∀ name ∈ references before, known name) → ∀ name ∈ references after, known name

namespace NamesKept

variable {α : Type} {known : String → Prop} {references : α → List String} {count : Nat}

/-- Names are kept from step to step. -/
theorem trans {first second third : α} (former : NamesKept known references first second)
    (latter : NamesKept known references second third) : NamesKept known references first third :=
  latter ∘ former

/-- A list keeps its names if each item does. -/
theorem flatMap {before after : List α}
    (each : Pass.Each (fun _ => NamesKept known references) count before after) :
    NamesKept known (·.flatMap references) before after := by
  induction each with
  | nil => exact id
  | cons kept _ ih =>
    simp only [NamesKept, List.flatMap_cons, List.forall_mem_append]
    exact And.imp kept ih

/-- So does a node that may be missing. -/
theorem ofHeld {before after : Option α}
    (held : Pass.Held (fun _ => NamesKept known references) count before after) :
    NamesKept known (fun node => (node.map references).getD []) before after := by
  cases held with
  | none => exact id
  | some kept => exact kept

/-- So do arguments. -/
theorem list {before after : List Expr}
    (each : Pass.Each (fun _ => NamesKept known Expr.references) count before after) :
    NamesKept known Expr.referencesList before after := by
  simp only [NamesKept, Expr.referencesList_eq_flatMap]
  exact flatMap each

/-- A rebuilt expression keeps its names. -/
theorem ofRebuilt {before after : Expr}
    (rebuilt : Pass.Rebuilt (fun _ => NamesKept known Expr.references)
      (fun _ => NamesKept known Statement.referencesList) count before after) :
    NamesKept known Expr.references before after := by
  unfold NamesKept
  cases rebuilt with
  | literal value => exact id
  | identifier name type => exact id
  | typeRef fqn => exact id
  | classLiteral fqn => exact id
  | fieldAccess name type kept =>
    rw [Expr.references, Expr.references]
    exact kept
  | methodCall name method held each =>
    cases held with
    | none =>
      rw [Expr.references, Expr.references]
      exact list each
    | some kept =>
      rw [Expr.references, Expr.references, List.forall_mem_append, List.forall_mem_append]
      exact And.imp kept (list each)
  | binary operator type left right =>
    rw [Expr.references, Expr.references, List.forall_mem_append, List.forall_mem_append]
    exact And.imp left right
  | newClass type each =>
    rw [Expr.references, Expr.references, List.forall_mem_append, List.forall_mem_append]
    exact And.imp_right (list each)
  | newArray element each =>
    rw [Expr.references, Expr.references, List.forall_mem_append, List.forall_mem_append]
    exact And.imp_right (list each)
  | lambda parameters kept =>
    rw [Expr.references, Expr.references]
    exact kept
  | parens kept =>
    rw [Expr.references, Expr.references]
    exact kept

/-- So do rebuilt catch clauses. -/
theorem catches {before after : List CatchClause}
    (each : Pass.Each (Pass.RebuiltCatch fun _ => NamesKept known Statement.referencesList) count before
      after) : NamesKept known CatchClause.referencesList before after := by
  induction each with
  | nil => exact id
  | cons rebuilt _ ih =>
    cases rebuilt with
    | handler parameter type kept =>
      unfold NamesKept
      rw [CatchClause.referencesList, CatchClause.referencesList]
      simp only [List.forall_mem_append]
      exact And.imp (And.imp_right kept) ih

/-- So does a rebuilt statement. -/
theorem ofRebuiltStatement {before after : Statement}
    (rebuilt : Pass.RebuiltStatement (fun _ => NamesKept known Expr.references)
      (fun _ => NamesKept known Statement.referencesList) count before after) :
    NamesKept known Statement.references before after := by
  unfold NamesKept
  cases rebuilt with
  | expression kept =>
    rw [Statement.references, Statement.references]
    exact kept
  | declaration name type held =>
    cases held with
    | none => exact id
    | some kept =>
      rw [Statement.references, Statement.references, List.forall_mem_append,
        List.forall_mem_append]
      exact And.imp_right kept
  | block kept =>
    rw [Statement.references, Statement.references]
    exact kept
  | conditional onCondition onThen held =>
    cases held with
    | none =>
      rw [Statement.references, Statement.references, List.forall_mem_append,
        List.forall_mem_append]
      exact And.imp onCondition onThen
    | some onElse =>
      rw [Statement.references, Statement.references]
      simp only [List.forall_mem_append]
      exact And.imp (And.imp onCondition onThen) onElse
  | guarded onBody each held =>
    cases held with
    | none =>
      rw [Statement.references, Statement.references, List.forall_mem_append,
        List.forall_mem_append]
      exact And.imp onBody (catches each)
    | some onFinally =>
      rw [Statement.references, Statement.references]
      simp only [List.forall_mem_append]
      exact And.imp (And.imp onBody (catches each)) onFinally
  | returning held =>
    cases held with
    | none => exact id
    | some kept =>
      rw [Statement.references, Statement.references]
      exact kept

/-- So does a rebuilt block. -/
theorem block {before after : List Statement}
    (each : Pass.Each (Pass.RebuiltStatement (fun _ => NamesKept known Expr.references)
      fun _ => NamesKept known Statement.referencesList) count before after) :
    NamesKept known Statement.referencesList before after := by
  induction each with
  | nil => exact id
  | cons rebuilt _ ih =>
    unfold NamesKept
    rw [Statement.referencesList, Statement.referencesList, List.forall_mem_append,
      List.forall_mem_append]
    exact And.imp (ofRebuiltStatement rebuilt) ih

/-- A field keeps its names with its initializer. -/
theorem initializer {field : FieldDecl} {initializer : Option Expr}
    (held : Pass.Held (fun _ => NamesKept known Expr.references) count field.initializer initializer) :
    NamesKept known FieldDecl.references field { field with initializer } := by
  unfold NamesKept
  rw [FieldDecl.references, FieldDecl.references, List.forall_mem_append, List.forall_mem_append]
  exact And.imp_right (ofHeld held)

/-- A method keeps its names with its body. -/
theorem body {method : MethodDecl} {body : List Statement}
    (kept : NamesKept known Statement.referencesList method.body body) :
    NamesKept known MethodDecl.references method { method with body } := by
  simp only [NamesKept, MethodDecl.references, List.forall_mem_append]
  exact And.imp_right kept

end NamesKept

/-! ## Rules that ask for no other imports -/

/-- The rule names known classes only. -/
abbrev Rule.Names (rule : Rule) (known : String → Prop) : Prop :=
  rule.Replaces
    (fun expr scope replacement => known scope.current.fqn →
      NamesKept known Expr.references expr replacement.expr ∧ replacement.effects.RequestsKnown known)
    (fun block scope replacement => known scope.current.fqn →
      NamesKept known Statement.referencesList block replacement.statements ∧
        replacement.effects.RequestsKnown known)
    (fun field _ scope replacement => known scope.current.fqn →
      NamesKept known FieldDecl.references field replacement.field)

namespace Rule

/-- The effects ask for no other imports than the given ones. -/
def isWithin (imports : List String) (effects : Effects) : Bool :=
  effects.addImports.all (imports.contains ·)

/-- The rule, where what it puts in place of a node needs no other imports than the given ones. -/
def importingOnly (imports : List String) (rule : Rule) : Rule :=
  { rule with
    onExpr := fun expr scope =>
      (rule.onExpr expr scope).map (·.filter (isWithin imports ·.effects))
    onBlock := fun block scope =>
      (rule.onBlock block scope).map (·.filter (isWithin imports ·.effects))
    onField := fun field declared scope =>
      (rule.onField field declared scope).map (·.filter (isWithin imports ·.effects)) }

/-- Effects within the imports add only those. -/
theorem forall_of_isWithin {imports : List String} {known : String → Prop} {effects : Effects}
    (within : isWithin imports effects = true) (each : ∀ name ∈ imports, known name) :
    ∀ name ∈ effects.addImports, known name := by
  intro name member
  exact each name (List.contains_iff_mem.mp (List.all_eq_true.mp within name member))

/-- A filtered offer was made and passed the test. -/
theorem map_filter_eq_ok {ρ : Type} {answer : Offer ρ} {test : ρ → Bool} {replacement : ρ}
    (made : answer.map (·.filter test) = .ok (some replacement)) :
    answer = .ok (some replacement) ∧ test replacement = true := by
  cases answer with
  | error reason => cases made
  | ok reply =>
    obtain ⟨rfl, passed⟩ := Option.filter_eq_some_iff.mp (Except.ok.inj made)
    exact ⟨rfl, passed⟩

/-- A rule that imports what it names, and imports known classes only, names known classes only. -/
theorem names_importingOnly {rule : Rule} {imports : List String} {known : String → Prop}
    (sound : rule.Imports known) (object : known ClassName.object)
    (each : ∀ name ∈ imports, known name) : (rule.importingOnly imports).Names known where
  onExpr applies made owned := by
    obtain ⟨made, within⟩ := map_filter_eq_ok made
    exact sound.onExpr applies made ⟨object, owned, forall_of_isWithin within each _⟩
  onBlock made owned := by
    obtain ⟨made, within⟩ := map_filter_eq_ok made
    exact sound.onBlock made ⟨object, owned, forall_of_isWithin within each _⟩
  onField made owned := by
    obtain ⟨made, within⟩ := map_filter_eq_ok made
    exact sound.onField made ⟨object, owned, forall_of_isWithin within each _⟩

section Follow

variable {imports : List String}

/-- Filtering commutes with dropping no-changes. -/
theorem changing_filter {α ρ : Type} [DecidableEq α] (made : ρ → α) (node : α) (test : ρ → Bool)
    (answer : Offer ρ) :
    Pass.changing made node (answer.map (·.filter test)) =
      (Pass.changing made node answer).map (·.filter test) := by
  cases answer with
  | error reason => rfl
  | ok reply =>
    simp only [Pass.changing, Except.map, Option.filter_filter, Bool.and_comm]

/-- An offer to a rule that is kept to some imports follows an offer to the rule, if these are all that
is collected in the end. -/
theorem follows_importingOnly {α ρ : Type} {kind : Pass.Offering α ρ} (lawful : kind.Lawful)
    {rule : Rule} {node : α}
    (change : ∀ scope, kind.change? (rule.importingOnly imports) node scope =
      (kind.change? rule node scope).map (·.filter (isWithin imports <| kind.effects ·))) :
    Pass.Follows (isWithin imports · = true) Progress.uncounted (kind.offer node rule)
      (kind.offer node (rule.importingOnly imports)) := by
  refine lawful.follows (fun {scope} idle => ?_) fun {replacement progress} made ended => ?_
  · rw [change, idle]
    rfl
  · -- Imports are only ever added, so what this offer adds is among those of the end.
    have both : isWithin imports progress.effects = true ∧
        isWithin imports (kind.effects replacement) = true := by
      rw [isWithin, lawful.addImports_replacing, List.all_eq_true] at ended
      simp only [isWithin, List.all_eq_true]
      exact ⟨fun name member => ended name (Effects.mem_addImports_merge.mpr (.inl member)),
        fun name member => ended name (Effects.mem_addImports_merge.mpr (.inr member))⟩
    refine ⟨both.1, ?_⟩
    rw [change, made]
    exact congrArg Except.ok (Option.filter_eq_some_iff.mpr ⟨rfl, both.2⟩)

/-- **A pass asks for the imports that it collects.** Rules that are kept to these do the same. -/
theorem follow_importingOnly (imports : List String) (rules : List Rule) :
    Pass.Follow (isWithin imports · = true) rules (rules.map (importingOnly imports)) := by
  have each {related : Rule → Rule → Prop} (kept : ∀ rule, related rule (rule.importingOnly imports)) :
      List.Forall₂ related rules (rules.map (importingOnly imports)) := by
    rw [List.forall₂_map_right_iff]
    exact List.forall₂_same.mpr fun rule _ => kept rule
  refine ⟨fun depth expr => ?_, fun depth block => ?_, fun around field => ?_⟩
  · refine Pass.Follows.foldOffers (each fun rule expr => ?_) expr
    refine follows_importingOnly (Pass.lawful_offeringExprs depth) fun scope => ?_
    let context := scope.goDown depth
    have answer : (if rule.applies expr context then (rule.importingOnly imports).onExpr expr context
        else .ok none) = (if rule.applies expr context then rule.onExpr expr context else .ok none).map
          (·.filter (isWithin imports ·.effects)) := by
      split <;> rfl
    exact (congrArg (Pass.changing Replacement.expr expr) answer).trans (changing_filter _ _ _ _)
  · refine Pass.Follows.foldOffers (each fun rule block => ?_) block
    exact follows_importingOnly (Pass.lawful_offeringBlocks depth) fun scope =>
      changing_filter _ _ _ _
  · refine Pass.Follows.foldOffers (each fun rule field => ?_) field
    exact follows_importingOnly (Pass.lawful_offeringFields around) fun scope =>
      changing_filter _ _ _ _

end Follow

end Rule

/-! ## Passes -/

namespace Pass

variable {known : String → Prop} {rules : List Rule} {slack : Nat}

/-- The pass stands in a known class, which has asked for fields that name known classes only. -/
abbrev SeesKnown (known : String → Prop) : Progress → Prop :=
  StandsIn known fun request => ∀ name ∈ request.declaration.references, known name

/-- Rules that name known classes only keep names known in all that they visit. -/
theorem visitRelation_of_names (names : ∀ rule ∈ rules, rule.Names known) :
    VisitRelation rules (SeesKnown known) (fun _ _ => NamesKept known Expr.references)
      (fun _ _ => NamesKept known Statement.referencesList)
      (fun _ => NamesKept known Expr.references)
      (fun _ => NamesKept known Statement.referencesList) where
  unvisited _ := id
  node rebuilt offered := (NamesKept.ofRebuilt rebuilt).trans offered
  block offered each := offered.trans (.block each)
  offersExpr depth expr := by
    refine @Yields.foldOffers _ _ (fun _ => NamesKept known Expr.references) (fun _ => id)
      (fun former latter => former.trans latter) _ rules expr fun rule member expr => ?_
    refine yields_offerExpr (fun _ _ => StandsIn.of_uncounted_eq) id
      fun progress _ sees applies made _ => ?_
    have own : known (progress.scope.goDown depth).current.fqn := sees.1
    obtain ⟨kept, requests⟩ := (names rule member).onExpr applies made own
    exact ⟨sees.absorb requests, kept⟩
  offersBlock depth block := by
    refine @Yields.foldOffers _ _ (fun _ => NamesKept known Statement.referencesList) (fun _ => id)
      (fun former latter => former.trans latter) _ rules block fun rule member block => ?_
    refine yields_offerBlock (fun _ _ => StandsIn.of_uncounted_eq) id fun progress _ sees made => ?_
    have own : known (progress.scope.goDown depth).current.fqn := sees.1
    obtain ⟨kept, requests⟩ := (names rule member).onBlock made own
    exact ⟨sees.absorb requests, kept⟩

/-- Fields keep their names when rules visit them. -/
theorem names_offerFields (names : ∀ rule ∈ rules, rule.Names known)
    (around : FieldDecl → ClassDecl) (field : FieldDecl) :
    Yields (SeesKnown known) (fun _ => NamesKept known FieldDecl.references field)
      (rules.foldlM (offerField around) field) := by
  refine @Yields.foldOffers _ _ (fun _ => NamesKept known FieldDecl.references) (fun _ => id)
    (fun former latter => former.trans latter) _ rules field fun rule member field => ?_
  exact yields_offerField (fun _ _ => StandsIn.of_uncounted_eq) id fun _ _ sees made =>
    ⟨sees, (names rule member).onField made sees.1⟩

/-- The requested fields are declared before the others. -/
theorem names_declareRequested {requests : List FieldRequest}
    (requested : ∀ request ∈ requests, ∀ name ∈ request.declaration.references, known name)
    (fields : List FieldDecl) :
    NamesKept known (·.flatMap FieldDecl.references) fields (declareRequested requests fields) := by
  intro onFields
  induction requests with
  | nil => exact onFields
  | cons request rest ih =>
    obtain ⟨first, others⟩ := List.forall_mem_cons.mp requested
    have onRest := ih others
    have step : declareRequested (request :: rest) fields =
        if (declareRequested rest fields).any (·.name == request.fieldName) then
          declareRequested rest fields
        else request.declaration :: declareRequested rest fields := rfl
    rw [step]
    split
    · exact onRest
    · change ∀ name ∈ List.flatMap FieldDecl.references (request.declaration :: _), known name
      rw [List.flatMap_cons, List.forall_mem_append]
      exact ⟨first, onRest⟩

/-- The names in a class stay known, if the classes that are declared in it are. -/
def KeepsKnown (known : String → Prop) (before after : ClassDecl) : Prop :=
  (∀ name ∈ before.declaredNames, known name) → NamesKept known ClassDecl.references before after

/-- A list of classes keeps its names if each does. -/
theorem KeepsKnown.each {count : Nat} {before after : List ClassDecl}
    (each : Each (fun _ => KeepsKnown known) count before after)
    (own : ∀ name ∈ ClassDecl.declaredNamesList before, known name) :
    NamesKept known ClassDecl.referencesList before after := by
  induction each with
  | nil => exact id
  | cons first _ ih =>
    rw [ClassDecl.declaredNamesList, List.forall_mem_append] at own
    simp only [NamesKept, ClassDecl.referencesList, List.forall_mem_append]
    exact And.imp (first own.1) (ih own.2)

/-- **A pass keeps the names in a class known**, if the classes that are declared in it are. -/
theorem carriesOver_keepsKnown (names : ∀ rule ∈ rules, rule.Names known) :
    CarriesOver rules slack fun _ => KeepsKnown known := by
  intro header fields methods nested depth scope owned inner progress visited after _ run
  obtain ⟨count, counted⟩ :=
    Nat.exists_eq_add_of_le (conservative_visitClass rules depth scope _ _ _ _ run).1
  refine ⟨trivial, count, counted, fun own => ?_⟩
  rw [ClassDecl.declaredNames, List.forall_mem_cons] at own
  obtain ⟨_, _, _, _, offered, initialized, called, others, last, sees, -, onFields, onInitializers,
    onMethods, onNested, rfl⟩ :=
    (visitRelation_of_names names).visitDecl (names_offerFields names) (fun _ _ sees => sees) inner
      ⟨owned ▸ own.1, List.forall_mem_nil _⟩ run
  have onInitializers : NamesKept known (·.flatMap FieldDecl.references) offered initialized :=
    .flatMap (onInitializers.imp fun _ _ _ ⟨_, same, held⟩ => same ▸ .initializer held)
  have onMethods : NamesKept known (·.flatMap MethodDecl.references) methods called :=
    .flatMap (onMethods.imp fun _ _ _ ⟨_, same, kept⟩ => same ▸ .body kept)
  have onFields := ((NamesKept.flatMap onFields).trans onInitializers).trans
    (names_declareRequested sees.2 initialized)
  simp only [NamesKept, ClassDecl.references, List.forall_mem_append]
  exact And.imp (And.imp (And.imp_right onFields) onMethods) (KeepsKnown.each onNested own.2)

end Pass

/-! ## Units -/

namespace ClassDecl

variable {name : String} {target : Framework}

mutual

/-- A framed class declares the same names. -/
theorem declaredNames_of_framed : ∀ {before after : ClassDecl}, Framed name target before after →
    after.declaredNames = before.declaredNames
  | .decl _ _ _ _, .decl _ _ _ _, framed => by
    rw [Framed] at framed
    obtain ⟨rfl, -, -, nested⟩ := framed
    rw [declaredNames, declaredNames, declaredNamesList_of_framed nested]

/-- So do framed lists of classes. -/
theorem declaredNamesList_of_framed : ∀ {before after : List ClassDecl},
    FramedList name target before after → declaredNamesList after = declaredNamesList before
  | [], _, framed => by
    rw [FramedList] at framed
    rw [framed]
  | _ :: _, _, framed => by
    rw [FramedList] at framed
    obtain ⟨visited, others, rfl, onFirst, onRest⟩ := framed
    rw [declaredNamesList, declaredNamesList, declaredNames_of_framed onFirst,
      declaredNamesList_of_framed onRest]

end

end ClassDecl

namespace CompilationUnit

/-- An import that is added covers its class, and takes no other name away. -/
theorem covers_addImport {fqn name : String}
    (covered : unit.covers name = true ∨ name = fqn) : (unit.addImport fqn).covers name = true := by
  unfold addImport
  split
  · obtain covered | rfl := covered
    · simp only [covers, hasImport, List.any_append, Bool.or_eq_true] at covered ⊢
      exact covered.imp_left (·.imp_right .inl)
    · simp [covers, hasImport]
  · rename_i present
    obtain covered | rfl := covered
    · exact covered
    · have : isImplicitlyImported unit.package name = true ∨ unit.hasImport name = true := by
        simpa [lacksImport, Decidable.or_iff_not_imp_left] using present
      simp only [covers, Bool.or_eq_true]
      exact .inl this

/-- Only names that are not used lose their import. -/
theorem covers_dropImport {fqn name : String}
    (named : name ∈ unit.references) (covered : unit.covers name = true) :
    (unit.dropImport fqn).covers name = true := by
  unfold dropImport
  split
  · rename_i unused
    -- An import is dropped only if nothing uses its name.
    have other : name ≠ fqn := by
      rintro rfl
      simp only [hasUnusedImport, Bool.and_eq_true, Bool.not_eq_true', List.contains_eq_mem,
        decide_eq_false_iff_not] at unused
      exact unused.2 named
    have kept : unit.hasImport name = true →
        (unit.imports.filter fun entry => entry.isStatic || entry.typeName != fqn).any
          (fun entry => !entry.isStatic && entry.typeName == name) = true := by
      intro imported
      obtain ⟨entry, member, imports⟩ := List.any_eq_true.mp imported
      refine List.any_eq_true.mpr ⟨entry, List.mem_filter.mpr ⟨member, ?_⟩, imports⟩
      obtain ⟨-, rfl⟩ : entry.isStatic = false ∧ entry.typeName = name := by simpa using imports
      simp [other]
    simp only [covers, Bool.or_eq_true] at covered ⊢
    exact covered.imp_left (·.imp_right kept)
  · exact covered

/-- The imports that a pass has collected cover their classes, and every name that is used stays
covered. -/
theorem covers_settleImports {effects : Effects} {name : String} (named : name ∈ unit.references)
    (covered : unit.covers name = true ∨ name ∈ effects.addImports) :
    (Pass.settleImports unit effects).covers name = true := by
  have adds (names : List String) (unit : CompilationUnit)
      (covered : unit.covers name = true ∨ name ∈ names) :
      (names.foldl addImport unit).covers name = true := by
    induction names generalizing unit with
    | nil => simpa using covered
    | cons first rest ih =>
      rw [List.foldl_cons]
      refine ih _ ?_
      obtain covered | member := covered
      · exact .inl (covers_addImport (.inl covered))
      · exact (List.mem_cons.mp member).imp_left fun same => covers_addImport (.inr same)
  have drops (names : List String) (unit : CompilationUnit) (named : name ∈ unit.references)
      (covered : unit.covers name = true) : (names.foldl dropImport unit).covers name = true := by
    induction names generalizing unit with
    | nil => exact covered
    | cons first rest ih =>
      rw [List.foldl_cons]
      refine ih _ ?_ (covers_dropImport named covered)
      rwa [references, Pass.classes_dropImport]
  rw [Pass.settleImports]
  refine drops _ _ ?_ (adds _ _ covered)
  rw [references, Pass.classes_addImports]
  exact named

variable {rules : List Rule} {slack : Nat} {tariff : Tariff}

/-- **A pass keeps a unit covered.** -/
theorem isCovered_visitUnit (suits : ∀ owner, ∀ rule ∈ rules, (tariff.within owner).Suits rule)
    (keeps : ∀ rule ∈ rules, rule.KeepsFields tariff.target)
    (sound : ∀ rule ∈ rules, ∀ known, rule.Imports known) {visited : CompilationUnit}
    {progress after : Progress}
    (run : (Pass.visitUnit rules slack unit).run progress = .ok visited after)
    (covered : unit.isCovered = true) : visited.isCovered = true := by
  -- Names that the unit covers, and the imports that the pass will have collected at its end.
  let known (name : String) : Prop := unit.covers name = true ∨ name ∈ after.effects.addImports
  have names : ∀ rule ∈ rules.map (Rule.importingOnly after.effects.addImports), rule.Names known := by
    refine List.forall_mem_map.mpr fun rule member => ?_
    refine Rule.names_importingOnly (sound rule member known) (.inl ?_) fun _ => .inr
    simp only [covers, isImplicitlyImported, Bool.or_eq_true]
    exact .inl (.inl (.inl (by decide)))
  have own : ∀ name ∈ ClassDecl.declaredNamesList unit.classes, known name := by
    intro name declares
    refine .inl ?_
    simp only [covers, Bool.or_eq_true, List.contains_iff_mem]
    exact .inr declares
  have ended : Rule.isWithin after.effects.addImports after.effects = true :=
    List.all_eq_true.mpr fun name member => List.contains_iff_mem.mpr member
  -- The pass is the same with rules that are kept to these imports, and those name only what is known.
  have follow := Rule.follow_importingOnly after.effects.addImports rules
  obtain ⟨-, follows⟩ := follow.visitUnit (Nat.le_refl slack) unit _ _ _ run ended
  obtain ⟨stop, runWithin, -⟩ := follows progress rfl
  obtain ⟨count, -, each⟩ := (Pass.carriesOver_keepsKnown names).visitUnit runWithin
  have kept := Pass.KeepsKnown.each each own fun name member => .inl (isCovered_iff.mp covered name member)
  have declares := ClassDecl.declaredNamesList_of_framed (framed_visitUnit suits keeps run).classes
  obtain ⟨classes, -, rfl⟩ := Pass.run_visitUnit_eq_ok.mp run
  rw [Pass.classes_settleImports] at kept declares
  refine isCovered_iff.mpr fun name member => ?_
  rw [references, Pass.classes_settleImports] at member
  refine covers_settleImports member ((kept name member).imp_left fun covered => ?_)
  rw [covers] at covered ⊢
  rwa [declares]

end CompilationUnit

namespace Engine

/-- **Names stay covered.** Whatever rules a configuration names, a unit that can use all names in it is
transformed into one that can. -/
theorem isCovered_transform (configuration : Configuration) (engine : Engine)
    (statistics : Statistics) (unit : CompilationUnit) (outcome : Outcome)
    (built : ofConfiguration configuration = .ok engine) (covered : unit.isCovered = true)
    (converged : (engine.transform statistics unit).1 = .ok outcome) :
    outcome.unit.isCovered = true := by
  have sound : ∀ rule ∈ engine.rules, ∀ known, rule.Imports known := by
    intro rule member
    obtain ⟨name, -, made⟩ := exists_of_mem_ofConfiguration built member
    exact Configuration.imports_of_buildRule made
  have pass {statistics : Statistics} {unit visited : CompilationUnit} {count : Nat}
      (passed : (engine.cycle statistics unit).1 = .ok (visited, count)) :
      unit.isCovered = true → visited.isCovered = true := by
    obtain ⟨after, run, -⟩ := cycle_eq_ok.mp passed
    exact CompilationUnit.isCovered_visitUnit (suits_of_ofConfiguration built)
      (keepsFields_of_ofConfiguration built) sound run
  exact @transformFrom_related engine unit outcome
    (fun before after => before.isCovered = true → after.isCovered = true)
    (fun former latter => latter ∘ former) pass _ _ _ _ converged covered

/-- A printed stack trace in a nested class that becomes a call with a level constant. -/
theorem isCovered_transform_level :
    let configuration : Configuration := { target := .jul, rules := ["print-stack-trace"] }
    let engine : Engine := { rules := [configuration.redirect.stackTraceRule], maxCycles := 10 }
    let error := Expr.ident "e" (.named ClassName.throwable)
    let declared (given : List FieldDecl) (call : Expr) : ClassDecl :=
      .decl { name := "C", fqn := "p.C" } []
        [{ name := "now", returnType := some (.named "java.util.Date"),
           body := [.returning (some (.newClass (.named "java.util.Date") []))] }]
        [.decl { name := "D", fqn := "p.C.D" } given
          [{ name := "m", parameters := [{ name := "e", type := .named ClassName.throwable }],
             body := [.expression call] }] []]
    let unit : CompilationUnit := {
      package := some "p"
      imports := [{ typeName := "java.util.Date" }]
      classes := [declared []
        (.call error "printStackTrace" [] (.onInstance ClassName.throwable "printStackTrace"))] }
    let outcome : Outcome := {
      unit := {
        package := some "p"
        imports := [{ typeName := "java.util.Date" }, { typeName := "java.util.logging.Level" },
          { typeName := "java.util.logging.Logger" }]
        classes := [declared
          [FieldRequest.declaration {
            ownerType := "p.C.D", fieldName := "logger", framework := .jul }]
          (.call (.ident "logger" (.named "java.util.logging.Logger")) "log"
            [.constant "java.util.logging.Level" "SEVERE", .string "Exception", error]
            (.onInstance "java.util.logging.Logger" "log"))] }
      summary := { unitsChanged := 1, replacements := 1, cycles := 2 } }
    ofConfiguration configuration = .ok engine ∧ unit.isCovered = true ∧
      (engine.transform {} unit).1 = .ok outcome ∧ outcome.unit.isCovered = true := by
  intro configuration engine error declared unit outcome
  have built : ofConfiguration configuration = .ok engine := by
    have step : ofConfiguration configuration =
        .ok { rules := Rule.byPriority engine.rules, maxCycles := 10 } := rfl
    rw [step, Rule.byPriority, List.mergeSort_singleton]
  have covered : unit.isCovered = true := CompilationUnit.isCovered_iff.mpr (by decide)
  have converged : (engine.transform {} unit).1 = .ok outcome := by decide
  exact ⟨built, covered, converged,
    isCovered_transform configuration engine {} unit outcome built covered converged⟩

end Engine

end LogCalls
