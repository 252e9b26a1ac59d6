import LogCalls.Proofs.Emission.Factory
import LogCalls.Proofs.Migration.References

/-! # What a pass makes of a class

A pass offers the fields of a class one after the other. A logger field that moves gets an initializer
that is written anew, and with the fields as they are then the members of the class and the nested
classes are visited. -/

namespace LogCalls

namespace ClassDecl

theorem mem_all_self (declared : ClassDecl) : declared ∈ declared.all := by
  cases declared
  exact List.mem_cons_self

theorem mem_all_of_mem_nested {declared inner : ClassDecl} (member : inner ∈ allList declared.nested) :
    inner ∈ declared.all := by
  cases declared
  exact List.mem_cons_of_mem _ member

end ClassDecl

/-- The scope with other fields of its class. -/
def Scope.holding (scope : Scope) (fields : List FieldDecl) : Scope :=
  { scope with current := { scope.current with fields } }

namespace Migrate

variable {depth : Nat} {settings : Migrate} {slack : Nat} {scope : Scope}

/-! ## Fields -/

/-- The field after it is offered to the rule in its class. -/
def carryField (settings : Migrate) (scope : Scope) (declared : ClassDecl) (field : FieldDecl) :
    FieldDecl :=
  ((settings.replaceField? field declared scope).map (·.field)).getD field

/-- A field that is offered stays as it is, or it gets the type of the target's loggers and an
initializer that asks the target for the same logger. -/
theorem carryField_cases (settings : Migrate) (scope : Scope) (declared : ClassDecl)
    (field : FieldDecl) :
    settings.carryField scope declared field = field ∨
      ∃ initial factory, field.initializer = some initial ∧
        FactoryCall.recognize? initial = some factory ∧
        settings.usesMigrate { owner := declared.fqn, name := field.name } false declared = true ∧
        settings.carryField scope declared field = { field with
          type := settings.loggerType
          initializer := some (settings.target.factoryCall factory.key scope.current.fqn) } := by
  unfold carryField
  cases replaced : settings.replaceField? field declared scope with
  | none => exact .inl rfl
  | some replacement =>
    obtain ⟨framework, initial, factory, -, -, initialized, recognized, -, uses, same, -⟩ :=
      replaceField?_cases replaced
    exact .inr ⟨initial, factory, initialized, recognized, uses, same⟩

@[simp] theorem name_carryField (scope : Scope) (declared : ClassDecl) (field : FieldDecl) :
    (settings.carryField scope declared field).name = field.name := by
  obtain same | ⟨_, _, -, -, -, same⟩ := settings.carryField_cases scope declared field <;> rw [same]

/-- Fields after they have been offered one after the other. `done` are the fields before them. -/
inductive Offered (settings : Migrate) (scope : Scope) (around : List FieldDecl → ClassDecl) :
    List FieldDecl → List FieldDecl → List FieldDecl → Prop where
  | nil (done : List FieldDecl) : Offered settings scope around done [] []
  | cons {done rest others : List FieldDecl} {field visited : FieldDecl} :
      visited = settings.carryField scope (around (done ++ field :: rest)) field →
      Offered settings scope around (done ++ [visited]) rest others →
        Offered settings scope around done (field :: rest) (visited :: others)

theorem Offered.names {around : List FieldDecl → ClassDecl} {done fields others : List FieldDecl}
    (offered : settings.Offered scope around done fields others) :
    others.map (·.name) = fields.map (·.name) := by
  induction offered with
  | nil => rfl
  | cons visits _ ih =>
    rw [List.map_cons, List.map_cons, ih, visits, name_carryField]

theorem yields_offerField (scope : Scope) (around : FieldDecl → ClassDecl) (field : FieldDecl) :
    Pass.Yields (Sees scope)
      (fun _ visited => visited = settings.carryField scope (around field) field)
      ([settings.rule].foldlM (Pass.offerField around) field) := by
  refine Pass.Yields.offerSingle ?_
  intro progress visited after sees run
  rw [Pass.run_offerField] at run
  have answer : settings.rule.onField field (around field) progress.scope =
      .ok (settings.replaceField? field (around field) scope) := by
    rw [← sees.1]
    rfl
  rw [answer] at run
  obtain ⟨_, ⟨⟩, visits⟩ := Pass.settle_returns run
  obtain ⟨-, same⟩ | ⟨replacement, -, -, -, rfl⟩ := Pass.settle_eq_ok (fun _ => rfl) run
  · exact ⟨sees_of_uncounted_eq same sees, 0, Progress.replacements_eq_of_uncounted_eq same, visits⟩
  · exact ⟨sees, 1, by simp, visits⟩

theorem yields_visitFields (scope : Scope) (around : List FieldDecl → ClassDecl) :
    ∀ done fields : List FieldDecl,
      Pass.Yields (Sees scope) (fun _ visited => ∃ others, visited = done ++ others ∧
        settings.Offered scope around done fields others)
        (Pass.visitFields [settings.rule] around done fields)
  | done, [] => by
    rw [Pass.visitFields]
    exact Pass.Yields.pure ⟨[], (List.append_nil done).symm, .nil done⟩
  | done, field :: rest => by
    rw [Pass.visitFields]
    refine (yields_offerField scope (fun field => around (done ++ field :: rest)) field).bind
      fun _ visited visits => ?_
    -- The next field sees this one as it is by now.
    refine (yields_visitFields scope around (done ++ [visited]) rest).imp
      fun _ result made => ?_
    obtain ⟨others, same, offered⟩ := made
    exact ⟨visited :: others, by rw [same, List.append_assoc, List.singleton_append],
      .cons visits offered⟩

/-! ## The visit of a class -/

/-- Nothing is asked of sites: a law that says what progress a pass makes. -/
theorem siteLaw_trivial (settings : Migrate) (scope : Scope) (fields : List String) :
    SiteLaw settings scope fields fun _ _ => True where
  nil := trivial
  append _ _ := trivial
  deep _ _ _ := trivial
  node _ _ _ := trivial

/-- The action ends with the result if it starts in the scope. -/
def Returns {α : Type} (scope : Scope) (action : PassM α) (result : α) : Prop :=
  ∃ progress after, Sees scope progress ∧ action.run progress = .ok result after

/-- The visit of a class: its fields are offered, and their initializers, the methods and the nested
classes are visited with the fields as they are then. -/
structure Visit (settings : Migrate) (slack depth : Nat) (scope : Scope) (before after : ClassDecl)
    (declared : List FieldDecl) : Prop where
  header : after.header = before.header
  offered : settings.Offered scope (ClassDecl.decl before.header · before.methods before.nested) []
    before.fields declared
  initializers : Returns (scope.holding declared)
    (declared.mapM (Pass.visitInitializer [settings.rule] slack depth)) after.fields
  methods : Returns (scope.holding declared)
    (before.methods.mapM (Pass.visitMethod [settings.rule] slack depth)) after.methods
  nested : ∃ start last,
    (Pass.visitNested [settings.rule] slack (depth - 1) (scope.holding declared) before.nested).run
      start = .ok after.nested last

theorem run_visitClass {before visited : ClassDecl} {progress after : Progress}
    (run : (Pass.visitClass [settings.rule] slack depth scope before).run progress = .ok visited after) :
    ∃ declared, settings.Visit slack depth scope before visited declared := by
  cases before with
  | decl header fields methods nested =>
  obtain ⟨declared, offered, initialized, seen, called, last, others, runFields, runInitializers,
    runMethods, runNested, rfl⟩ := Pass.run_visitClass_eq_ok.mp run
  have entered : Sees scope (progress.enter scope) := ⟨rfl, rfl⟩
  obtain ⟨seesOffered, -, -, fieldsOffered, same, onFields⟩ :=
    yields_visitFields scope _ [] fields _ _ _ entered runFields
  rw [List.nil_append] at same
  subst same
  -- After the fields have been offered the scope holds them in their new form.
  have sees : Sees (scope.holding declared) (offered.seeFields declared) :=
    ⟨by rw [← seesOffered.1]; rfl, seesOffered.2⟩
  -- The trivial law is enough to see that the visits of members leave the scope alone.
  have law := siteLaw_trivial settings (scope.holding declared) []
  obtain ⟨seesInitialized, -⟩ :=
    Pass.Yields.mapList _ (fun field _ => law.visitInitializer depth field) _ _ _ sees runInitializers
  obtain ⟨seesCalled, -⟩ :=
    Pass.Yields.mapList _ (fun method _ => law.visitMethod depth method) _ _ _ seesInitialized runMethods
  rw [seesCalled.1] at runNested
  rw [seesCalled.2]
  exact ⟨declared, rfl, onFields, ⟨_, _, sees, runInitializers⟩, ⟨_, _, seesInitialized, runMethods⟩,
    last, after, runNested⟩

/-! ## Sites of members -/

namespace SiteLaw

variable {fields : List String} {related : List Site → List Site → Prop} {place : Place}

/-- The sites of methods are related when they are visited. -/
theorem methods (law : SiteLaw settings scope fields related) {before after : List MethodDecl}
    (returns : Returns scope (before.mapM (Pass.visitMethod [settings.rule] slack depth)) after)
    (here : place.fields = fields) (enough : Pass.maxDepth ≤ place.level + depth) :
    related (before.flatMap (·.sites place)) (after.flatMap (·.sites place)) := by
  obtain ⟨progress, last, sees, run⟩ := returns
  obtain ⟨-, count, -, each⟩ :=
    Pass.Yields.mapList _ (fun method _ => law.visitMethod depth method) _ _ _ sees run
  exact law.flatMap (each.forall₂ fun _ _ _ follows => follows place here enough)

/-- So are those of fields when their initializers are visited; the names and types are kept. -/
theorem initializers (law : SiteLaw settings scope fields related) {before after : List FieldDecl}
    (returns : Returns scope (before.mapM (Pass.visitInitializer [settings.rule] slack depth)) after) :
    after.map (fun field => (field.name, field.type)) =
        before.map (fun field => (field.name, field.type)) ∧
      ∀ (keep : String → Bool) (place : Place), place.fields = fields →
        Pass.maxDepth ≤ place.level + depth →
        related ((before.filter fun field => keep field.name).flatMap (·.sites place))
          ((after.filter fun field => keep field.name).flatMap (·.sites place)) := by
  obtain ⟨progress, last, sees, run⟩ := returns
  obtain ⟨-, count, -, each⟩ :=
    Pass.Yields.mapList _ (fun field _ => law.visitInitializer depth field) _ _ _ sees run
  clear run
  -- Both statements go along the list together, as the filter needs the names to agree.
  induction each with
  | nil => exact ⟨rfl, fun _ _ _ _ => law.nil⟩
  | @cons _ _ before after _ _ first _ ih =>
    obtain ⟨name, type, follows⟩ := first
    obtain ⟨names, rest⟩ := ih
    refine ⟨by rw [List.map_cons, List.map_cons, name, type, names], ?_⟩
    intro keep place here enough
    rw [List.filter_cons, List.filter_cons, name]
    split
    · rw [List.flatMap_cons, List.flatMap_cons]
      exact law.append (follows place here enough) (rest keep place here enough)
    · exact rest keep place here enough

end SiteLaw

theorem names_of_initializers {before after : List FieldDecl}
    (returns : Returns scope (before.mapM (Pass.visitInitializer [settings.rule] slack depth)) after) :
    after.map (·.name) = before.map (·.name) := by
  have both := ((siteLaw_trivial settings scope []).initializers returns).1
  have names := congrArg (List.map Prod.fst) both
  rw [List.map_map, List.map_map] at names
  exact names

/-- The names of the fields are kept. -/
theorem Visit.names {before after : ClassDecl} {declared : List FieldDecl}
    (visit : settings.Visit slack depth scope before after declared) :
    after.fields.map (·.name) = before.fields.map (·.name) :=
  (names_of_initializers visit.initializers).trans visit.offered.names

/-! ## Classes -/

/-- What is known of the scope of a class is known of the scopes of its nested classes, if these are
admitted. -/
def Descends (inside : Scope → List String → Prop) (admits : ClassDecl → Prop) : Prop :=
  ∀ scope fields (declared : ClassDecl) (renewed : List FieldDecl), inside scope fields →
    admits declared → renewed.map (·.name) = declared.fields.map (·.name) →
    inside ((scope.nested declared).holding renewed) (declared.fields.map (·.name) ++ fields)

/-- Relations between the sites of a class before and after its fields are offered, and before and after
its members are visited. `inside` is what is known of a scope, `admits` of the nested classes. -/
structure ClassLaw (settings : Migrate) (inside : Scope → List String → Prop)
    (admits : ClassDecl → Prop) (offered visited whole : List Site → List Site → Prop) : Prop
    extends Pass.Gathers whole where
  members {scope : Scope} {fields : List String} : inside scope fields →
    SiteLaw settings scope fields visited
  unoffered (sites : List Site) : offered sites sites
  offeredAppend {front others back more : List Site} :
    offered front others → offered back more → offered (front ++ back) (others ++ more)
  field {scope : Scope} {place : Place} (start : Scope) (declared : ClassDecl) (field : FieldDecl) :
    inside scope place.fields →
      offered (field.sites place) ((settings.carryField start declared field).sites place)
  compose {before middle after : List Site} : offered before middle → visited middle after →
    whole before after
  nested : Descends inside admits

namespace ClassLaw

variable {inside : Scope → List String → Prop} {admits : ClassDecl → Prop}
  {offered visited whole : List Site → List Site → Prop}

/-- The sites of fields are related when the fields are offered. -/
theorem fields (law : ClassLaw settings inside admits offered visited whole) {start : Scope}
    {around : List FieldDecl → ClassDecl} {done before after : List FieldDecl}
    (offers : settings.Offered start around done before after) (keep : String → Bool)
    {place : Place} (here : inside scope place.fields) :
    offered ((before.filter fun field => keep field.name).flatMap (·.sites place))
      ((after.filter fun field => keep field.name).flatMap (·.sites place)) := by
  induction offers with
  | nil => exact law.unoffered []
  | cons visits _ ih =>
    subst visits
    rw [List.filter_cons, List.filter_cons, name_carryField]
    split
    · rw [List.flatMap_cons, List.flatMap_cons]
      exact law.offeredAppend (law.field start _ _ here) ih
    · exact ih

mutual

/-- The sites of a class are related when it is visited. -/
theorem visit (law : ClassLaw settings inside admits offered visited whole) :
    ∀ (before : ClassDecl) {depth : Nat} {scope : Scope} {after : ClassDecl} {declared : List FieldDecl},
      (∀ inner ∈ ClassDecl.allList before.nested, admits inner) →
      settings.Visit slack depth scope before after declared →
      ∀ place : Place, Pass.maxDepth ≤ place.level + depth →
        inside (scope.holding declared) place.fields → whole (before.sites place) (after.sites place)
  | .decl header fields methods nested, depth, scope, after, declared => by
    intro admitted visit place enough here
    have members := law.members here
    -- Fields change twice: when they are offered, and when their initializers are visited.
    have onFields := law.compose (law.fields visit.offered (fun _ => true) here)
      ((members.initializers visit.initializers).2 (fun _ => true) place rfl enough)
    rw [List.filter_true, List.filter_true] at onFields
    obtain ⟨start, last, runNested⟩ := visit.nested
    cases after with
    | decl =>
      exact law.append onFields (law.append
        (law.compose (law.unoffered _) (members.methods visit.methods rfl enough))
        (law.visitNested nested admitted runNested place (by omega) here))

/-- The sites of nested classes are related when they are visited. -/
theorem visitNested (law : ClassLaw settings inside admits offered visited whole) :
    ∀ (nested : List ClassDecl) {depth : Nat} {scope : Scope} {result : List ClassDecl}
      {progress after : Progress}, (∀ inner ∈ ClassDecl.allList nested, admits inner) →
      (Pass.visitNested [settings.rule] slack depth scope nested).run progress = .ok result after →
      ∀ place : Place, Pass.maxDepth ≤ place.level + 1 + depth → inside scope place.fields →
        whole (ClassDecl.sitesList place nested) (ClassDecl.sitesList place result)
  | [], depth, scope, result, progress, after => by
    intro _ run
    rw [Pass.visitNested] at run
    cases run
    exact fun _ _ _ => law.nil
  | first :: rest, depth, scope, result, progress, after => by
    intro admitted run
    rw [Pass.visitNested] at run
    obtain ⟨visitedFirst, middle, runFirst, run⟩ := Pass.run_bind_eq_ok.mp run
    obtain ⟨others, last, runRest, run⟩ := Pass.run_bind_eq_ok.mp run
    cases run
    obtain ⟨declared, visit⟩ := run_visitClass runFirst
    intro place enough here
    -- The names of the fields are kept, so what is inside the class sees the same names.
    have within : place.within visitedFirst = place.within first := by
      rw [Place.within, Place.within, visit.names]
    have admittedFirst := admitted first (List.mem_append_left _ first.mem_all_self)
    rw [ClassDecl.sitesList, ClassDecl.sitesList, within]
    refine law.append (law.visit first (fun inner member => admitted inner
        (List.mem_append_left _ (ClassDecl.mem_all_of_mem_nested member))) visit (place.within first)
        enough (law.nested _ _ _ _ here admittedFirst visit.offered.names)) ?_
    exact law.visitNested rest (fun inner member => admitted inner (List.mem_append_right _ member))
      runRest place enough here

end

end ClassLaw

/-! ## Initializers that are written anew -/

/-- A site of an initializer that asks another framework for the same logger: one of the old sites, at
most one level deeper, or one that is new. -/
inductive Renewed (target : Framework) (initial : Expr) (place : Place) : Site → Prop where
  | kept {site other : Site} : site ∈ initial.sites place → site.expr = other.expr →
      site.SameNames other.toPlace → (site.isReceiver = true → other.isReceiver = true) →
      other.level ≤ site.level + 1 → Renewed target initial place other
  | factory (key : LoggerKey) (owner : String) :
      Renewed target initial place ⟨place, target.factoryCall key owner⟩
  | typeRef {other : Place} (fqn : String) : place.SameNames other →
      Renewed target initial place ⟨other, .typeRef fqn⟩
  | classLiteral {other : Place} (fqn : String) : place.SameNames other →
      Renewed target initial place ⟨other, .classLiteral fqn⟩
  | literalName (fqn : String) :
      Renewed target initial place ⟨place.argument, (Expr.classLiteral fqn).classNameCall⟩
  | className {expr : Expr} : ⟨place.argument, expr⟩ ∈ initial.sites place →
      Renewed target initial place ⟨place.argument, expr.classNameCall⟩

section Renewals

variable {initial : Expr} {factory : FactoryCall} {place : Place} {site : Site}

/-- The sites of a call that asks for a logger: the call, the class of the method, and the arguments. -/
theorem sites_factoryCall (target : Framework) (key : LoggerKey) (owner : String) (place : Place) :
    (target.factoryCall key owner).sites place = ⟨place, target.factoryCall key owner⟩ ::
      ⟨place.receiver, .typeRef target.factoryType⟩ ::
        Expr.sitesList place.argument (key.factoryArguments target owner) := rfl

/-- These are the sites of such an initializer. -/
theorem renewed_of_mem (recognized : FactoryCall.recognize? initial = some factory)
    (target : Framework) (owner : String) (place : Place) :
    ∀ site ∈ (target.factoryCall factory.key owner).sites place, Renewed target initial place site := by
  obtain ⟨select, name, arguments, rfl, -, found⟩ := FactoryCall.recognize?_cases recognized
  rw [sites_factoryCall]
  refine List.forall_mem_cons.mpr ⟨.factory _ _, List.forall_mem_cons.mpr ⟨.typeRef _ ⟨rfl, rfl⟩, ?_⟩⟩
  -- The new arguments name a class, or are made of the old argument.
  obtain ⟨-, none | ⟨fqn, literal | ⟨-, named⟩⟩⟩ | ⟨argument, rfl, -, same | ⟨-, named⟩⟩ :=
    LoggerKey.factoryArguments_cases found target owner
  · rw [none]
    exact List.forall_mem_nil _
  · rw [literal]
    exact List.forall_mem_singleton.mpr (.classLiteral fqn ⟨rfl, rfl⟩)
  · rw [named]
    exact List.forall_mem_cons.mpr ⟨.literalName fqn,
      List.forall_mem_singleton.mpr (.classLiteral fqn ⟨rfl, rfl⟩)⟩
  · rw [same, Expr.sitesList, Expr.sitesList, List.append_nil]
    exact fun site member => .kept (Expr.mem_sites_of_argument List.mem_cons_self member) rfl ⟨rfl, rfl⟩
      id (Nat.le_succ _)
  · have whole : Expr.sitesList place.argument [argument.classNameCall] =
        ⟨place.argument, argument.classNameCall⟩ ::
          (argument.sites place.argument.receiver ++ [] ++ []) := rfl
    rw [named, whole, List.append_nil, List.append_nil]
    have first := argument.mem_sites_self place.argument
    refine List.forall_mem_cons.mpr ⟨.className (Expr.mem_sites_of_argument List.mem_cons_self first), ?_⟩
    -- The old argument has become a receiver, which is one level deeper at most.
    have steady : Place.Steady fun place other : Place => place.SameNames other ∧
        (place.isReceiver = true → other.isReceiver = true) ∧ other.level ≤ place.level + 1 := by
      have names := Place.steady_sameNames
      exact ⟨fun all => ⟨names.inner all.1, id, Nat.succ_le_succ all.2.2⟩,
        fun all => ⟨names.receiver all.1, id, Nat.succ_le_succ all.2.2⟩,
        fun all => ⟨names.bare all.1, all.2.1, Nat.succ_le_succ all.2.2⟩,
        fun all => ⟨names.aside all.1, all.2⟩, fun bound all => ⟨names.binding bound all.1, all.2⟩⟩
    have matched := argument.forall₂_sites steady
      (show place.argument.SameNames place.argument.receiver ∧ _ ∧ _ from
        ⟨⟨rfl, rfl⟩, fun received => absurd received Bool.false_ne_true, Nat.le_refl _⟩)
    intro site member
    obtain ⟨initial, found, same, names, receives, near⟩ := exists_of_forall₂ matched member
    exact .kept (Expr.mem_sites_of_argument List.mem_cons_self found) same names receives near

/-- A pass reaches what is in the new initializer if it reaches what was in the old one. -/
theorem clear_of_renewed (recognized : FactoryCall.recognize? initial = some factory)
    (clear : ∀ site ∈ initial.sites place, site.Clear 1)
    (renewed : Renewed settings.target initial place site) : site.Clear 0 := by
  obtain ⟨select, name, arguments, rfl, -⟩ := FactoryCall.recognize?_cases recognized
  -- The old initializer is a call with room for one level, which the new one uses up at most.
  have top := (clear _ (Expr.mem_sites_self place _)).near rfl
  cases renewed with
  | kept member same _ _ near =>
    have old := clear _ member
    refine ⟨fun call => ?_, same ▸ old.quiet⟩
    have := old.near (same ▸ call)
    omega
  | factory key owner => exact ⟨fun _ => Nat.lt_of_succ_lt top, isLoud_factoryCall _ key owner⟩
  | typeRef => exact ⟨nofun, rfl⟩
  | classLiteral => exact ⟨nofun, rfl⟩
  | literalName fqn => exact ⟨fun _ => top, isLoud_classNameCall _⟩
  | className => exact ⟨fun _ => top, isLoud_classNameCall _⟩

/-- The uses of a variable in the new initializer can be carried over if those in the old one can. -/
theorem movable_of_renewed {refers : Reference} (lawful : refers.Lawful settings.target)
    (movable : ∀ site ∈ initial.sites place, refers.Movable settings site)
    (renewed : Renewed settings.target initial place site) : refers.Movable settings site := by
  -- A new call is no use of a variable if its receiver is no reference to it.
  have call {expr : Expr} {place : Place} {name : String} {arguments : List Expr}
      {method : Option ResolvedMethod} (other : refers place.fields expr = false) :
      refers.Movable settings ⟨place, .methodCall (some expr) name arguments method⟩ := by
    refine ⟨fun through => ?_, fun head found => ?_⟩
    · cases lawful.pure through
    · rw [Expr.headThrough?, other] at found
      cases found
  have atom {expr : Expr} {place : Place} (other : refers place.fields expr = false)
      (headless : expr.headThrough? (refers place.fields) = none) :
      refers.Movable settings ⟨place, expr⟩ := by
    refine ⟨fun through => ?_, fun head found => ?_⟩
    · rw [other] at through
      cases through
    · rw [headless] at found
      cases found
  cases renewed with
  | kept member same names receives =>
    have old := movable _ member
    refine ⟨fun through => ?_, ?_⟩
    · rw [← same, ← names.fields] at through
      exact receives (old.isReceiver through)
    · rw [← same, ← names.fields]
      exact old.planned
  | factory key owner => exact call lawful.typeRef
  | typeRef => exact atom lawful.typeRef rfl
  | classLiteral => exact atom lawful.classLiteral rfl
  | literalName fqn => exact call lawful.classLiteral
  | className member =>
    refine call (Bool.eq_false_iff.mpr fun through => ?_)
    -- The argument is no receiver, so it was no reference.
    cases (movable _ member).isReceiver through

/-- A pass reaches what is in a field that has been offered. -/
theorem clear_carryField (start : Scope) (declared : ClassDecl) (field : FieldDecl)
    (clear : ∀ site ∈ field.sites place, site.Clear 1) :
    ∀ site ∈ (settings.carryField start declared field).sites place, site.Clear 0 := by
  obtain same | ⟨initial, factory, initialized, recognized, -, same⟩ :=
    settings.carryField_cases start declared field
  · rw [same]
    exact fun site member => (clear site member).zero
  · rw [same, FieldDecl.sites]
    rw [FieldDecl.sites, initialized] at clear
    exact fun site member => clear_of_renewed recognized clear
      (renewed_of_mem recognized settings.target _ place.initial site member)

/-- The uses of a variable in a field that has been offered can be carried over if they could before. -/
theorem movable_carryField {refers : Reference} (lawful : refers.Lawful settings.target)
    (start : Scope) (declared : ClassDecl) (field : FieldDecl)
    (movable : ∀ site ∈ field.sites place, refers.Movable settings site) :
    ∀ site ∈ (settings.carryField start declared field).sites place,
      refers.Movable settings site := by
  obtain same | ⟨initial, factory, initialized, recognized, -, same⟩ :=
    settings.carryField_cases start declared field
  · rw [same]
    exact movable
  · rw [same, FieldDecl.sites]
    rw [FieldDecl.sites, initialized] at movable
    exact fun site member => movable_of_renewed lawful movable
      (renewed_of_mem recognized settings.target _ place.initial site member)

end Renewals

/-! ## Laws -/

section Laws

variable {inside : Scope → List String → Prop} {admits : ClassDecl → Prop} {refers : Reference}

/-- An initializer that is written anew has no more marked calls than the old one. -/
theorem Marks.countP_factoryCall_le {fields : List String} {marked : List String → Expr → Bool}
    (marks : Marks settings scope fields marked) {initial : Expr} {factory : FactoryCall}
    (recognized : FactoryCall.recognize? initial = some factory) (owner : String) {place : Place}
    (here : place.fields = fields) :
    ((settings.target.factoryCall factory.key owner).sites place).countP
        (fun site => marked site.fields site.expr) ≤
      (initial.sites place).countP fun site => marked site.fields site.expr := by
  obtain ⟨select, name, arguments, rfl, -, found⟩ := FactoryCall.recognize?_cases recognized
  have valuation := marks.valuation place.argument here
  have split : (settings.target.factoryCall factory.key owner).sites place =
      ⟨place, settings.target.factoryCall factory.key owner⟩ ::
        ((Expr.typeRef settings.target.factoryType).sites place.receiver ++
          Expr.sitesList place.argument (factory.key.factoryArguments settings.target owner)) := rfl
  -- Asking an expression for its name adds no marked call.
  have named (expr : Expr) : (expr.classNameCall.sites place.argument).countP
      (fun site => marked site.fields site.expr) =
        (expr.sites place.argument).countP fun site => marked site.fields site.expr := by
    have split : expr.classNameCall.sites place.argument =
        ⟨place.argument, expr.classNameCall⟩ :: (expr.sites place.argument.receiver ++ []) := rfl
    have unmarked : marked place.argument.fields expr.classNameCall = false :=
      here ▸ marks.className expr
    rw [split, List.append_nil, List.countP_cons, if_neg (by simp [unmarked]), Nat.add_zero]
    exact expr.countP_sites marked (show place.argument.receiver.fields = place.argument.fields from rfl)
  -- The arguments are among the sites of the old initializer, whatever its receiver is.
  have old : total (fun expr => (expr.sites place.argument).countP
      fun site => marked site.fields site.expr) arguments ≤
      ((Expr.methodCall select name arguments (some factory.method)).sites place).countP
        fun site => marked site.fields site.expr := by
    rw [← Expr.countP_sitesList]
    cases select with
    | none =>
      rw [Expr.sites, List.countP_cons]
      omega
    | some select =>
      rw [Expr.sites, List.countP_cons, List.countP_append]
      omega
  have unmarked : marked place.fields (settings.target.factoryCall factory.key owner) = false :=
    here ▸ marks.factory factory.key owner
  have plain := (marks.valuation place.receiver here).typeRef settings.target.factoryType
  refine Nat.le_trans ?_ old
  rw [split, List.countP_cons, if_neg (by simp [unmarked]), List.countP_append, plain,
    Nat.zero_add, Nat.add_zero, Expr.countP_sitesList]
  obtain ⟨-, none | ⟨fqn, literal | ⟨-, literal⟩⟩⟩ | ⟨argument, rfl, -, same | ⟨-, same⟩⟩ :=
    LoggerKey.factoryArguments_cases found settings.target owner
  · rw [none, total_nil]
    exact Nat.zero_le _
  · rw [literal, total_cons, total_nil, valuation.classLiteral]
    exact Nat.zero_le _
  · rw [literal, total_cons, total_nil, named, valuation.classLiteral]
    exact Nat.zero_le _
  · exact Nat.le_of_eq (by rw [same])
  · exact Nat.le_of_eq (by rw [same, total_cons, total_cons, named])

/-- A pass adds no marked calls to a class. -/
theorem classLaw_of_marks {marked : List String → Expr → Bool} (descends : Descends inside admits)
    (marks : ∀ {scope fields}, inside scope fields → Marks settings scope fields marked) :
    let fewer := fun before after : List Site =>
      after.countP (fun site => marked site.fields site.expr) ≤
        before.countP fun site => marked site.fields site.expr
    ClassLaw settings inside admits fewer fewer fewer where
  nil := Nat.le_refl _
  append first second := by
    rw [List.countP_append, List.countP_append]
    omega
  members here := (marks here).siteLaw
  unoffered _ := Nat.le_refl _
  offeredAppend first second := by
    rw [List.countP_append, List.countP_append]
    omega
  field start declared field here := by
    obtain same | ⟨initial, factory, initialized, recognized, -, same⟩ :=
      settings.carryField_cases start declared field
    · exact Nat.le_of_eq (by rw [same])
    · rw [same, FieldDecl.sites, FieldDecl.sites, initialized]
      exact (marks here).countP_factoryCall_le recognized _ rfl
  compose first second := Nat.le_trans second first
  nested := descends

/-- The calls in the methods of a class stay as they are with their field. -/
theorem classLaw_of_unsettled (lawful : refers.Lawful settings.target)
    (descends : Descends (fun scope fields => settings.Unsettled scope fields refers) admits) :
    let same := fun before after : List Site => refers.bodyCalls after = refers.bodyCalls before
    ClassLaw settings (fun scope fields => settings.Unsettled scope fields refers) admits
      same same same where
  nil := rfl
  append first second := by rw [bodyCalls_append, bodyCalls_append, first, second]
  members here := siteLaw_of_unsettled lawful here
  unoffered _ := rfl
  offeredAppend first second := by rw [bodyCalls_append, bodyCalls_append, first, second]
  field start declared field _ := by
    -- Initializers are not in methods, so nothing is counted there.
    have outside (field : FieldDecl) (place : Place) : refers.bodyCalls (field.sites place) = [] := by
      unfold FieldDecl.sites
      cases field.initializer with
      | none => rfl
      | some initial =>
        have outside := bodyCalls_outside refers (show place.initial.inBody = false from rfl) [initial]
        rw [Expr.sitesList, Expr.sitesList, List.append_nil] at outside
        exact outside
    rw [outside, outside]
  compose first second := second.trans first
  nested := descends

/-- The uses of a field that has moved move with it. -/
theorem classLaw_of_settles (lawful : refers.Lawful settings.target)
    (descends : Descends (fun scope fields => settings.Settles scope fields refers) admits) :
    ClassLaw settings (fun scope fields => settings.Settles scope fields refers) admits
      (fun before after => (∀ site ∈ before, refers.Ready settings 1 site) →
        ∀ site ∈ after, refers.Ready settings 0 site)
      (fun before after => (∀ site ∈ before, refers.Ready settings 0 site) →
        ∀ site ∈ after, refers.Moved settings.target site)
      (fun before after => (∀ site ∈ before, refers.Ready settings 1 site) →
        ∀ site ∈ after, refers.Moved settings.target site) where
  nil _ := nofun
  append first second each := by
    obtain ⟨front, back⟩ := List.forall_mem_append.mp each
    exact List.forall_mem_append.mpr ⟨first front, second back⟩
  members here := siteLaw_of_settles lawful here
  unoffered sites each site member :=
    { (each site member).toMovable, (each site member).toClear.zero with }
  offeredAppend first second each := by
    obtain ⟨front, back⟩ := List.forall_mem_append.mp each
    exact List.forall_mem_append.mpr ⟨first front, second back⟩
  field start declared field _ ready site member :=
    { movable_carryField lawful start declared field (fun site member => (ready site member).toMovable)
        site member,
      clear_carryField start declared field (fun site member => (ready site member).toClear)
        site member with }
  compose first second each := second (first each)
  nested := descends

end Laws

end Migrate

end LogCalls
