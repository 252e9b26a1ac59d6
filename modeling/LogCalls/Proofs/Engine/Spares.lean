import LogCalls.Proofs.Engine.Visits
import LogCalls.Proofs.Rule.Configured
import LogCalls.Proofs.Tree.Sites

/-! # Code that a pass leaves alone

Take rules that replace nothing but expressions of some kind, blocks with such an expression as a
statement, and fields that are initialized by one. A pass with these rules has nothing to do in a unit
in which there are no such expressions. -/

namespace LogCalls

variable {place : Place}

/-! ## Calm nodes -/

/-- All expressions at the sites are calm. -/
def Throughout (calm : Expr → Prop) (sites : List Site) : Prop := ∀ site ∈ sites, calm site.expr

/-- All expressions in the node are calm, wherever it stands. -/
def Wholly {α : Type} (calm : Expr → Prop) (sites : Place → α → List Site) (node : α) : Prop :=
  ∃ place, Throughout calm (sites place node)

/-- The rule replaces no calm expression, no block whose expressions are all calm, and no field that is
initialized by a calm expression. -/
abbrev Rule.Heeds (calm : Expr → Prop) (rule : Rule) : Prop :=
  rule.Replaces (fun expr _ replacement => replacement.expr ≠ expr → ¬ calm expr)
    (fun block _ _ => ∃ value, .expression value ∈ block ∧ ¬ calm value)
    (fun field _ _ _ => ∃ initial, field.initializer = some initial ∧ ¬ calm initial)

variable {calm : Expr → Prop}

namespace Throughout

variable {first second : List Site}

/-- The front of calm sites is calm. -/
theorem left (quiet : Throughout calm (first ++ second)) : Throughout calm first :=
  fun site member => quiet site (List.mem_append_left second member)

/-- So is the back. -/
theorem right (quiet : Throughout calm (first ++ second)) : Throughout calm second :=
  fun site member => quiet site (List.mem_append_right first member)

/-- So are the sites after the first. -/
theorem tail {site : Site} {sites : List Site} (quiet : Throughout calm (site :: sites)) :
    Throughout calm sites :=
  fun other member => quiet other (List.mem_cons_of_mem site member)

/-- Expressions that stand elsewhere are still calm. -/
theorem of_forall₂ {related : Place → Place → Prop}
    (matched : List.Forall₂ (Site.Matches related) first second) (quiet : Throughout calm first) :
    Throughout calm second := by
  intro site member
  obtain ⟨other, found, same, -⟩ := exists_of_forall₂ matched member
  rw [← same]
  exact quiet other found

end Throughout

/-- Nothing at all is asked of places. -/
theorem Place.steady_any : Place.SteadyInside fun _ _ => True where
  inner _ := trivial
  receiver _ := trivial
  bare _ := trivial
  aside _ := trivial
  initial _ := trivial
  binding _ _ := trivial
  within _ _ := trivial

/-- Calm does not depend on the place. -/
theorem Expr.throughout_sites (expr : Expr) {other : Place}
    (quiet : Throughout calm (expr.sites place)) : Throughout calm (expr.sites other) :=
  .of_forall₂ (expr.forall₂_sites Place.steady_any.toSteady trivial) quiet

/-- Nor does it for a class. -/
theorem ClassDecl.throughout_sites (declared : ClassDecl) {other : Place}
    (quiet : Throughout calm (declared.sites place)) : Throughout calm (declared.sites other) :=
  .of_forall₂ (declared.forall₂_sites Place.steady_any trivial) quiet

/-- Each of calm arguments is calm. -/
theorem Expr.wholly_of_mem {exprs : List Expr}
    (quiet : Throughout calm (sitesList place exprs)) : ∀ expr ∈ exprs, Wholly calm sites expr := by
  intro expr member
  refine ⟨place, fun site inside => quiet site ?_⟩
  rw [sitesList_eq_flatMap]
  exact List.mem_flatMap.mpr ⟨expr, member, inside⟩

/-- A calm expression is calm at its root. -/
theorem Expr.calm_of_wholly {expr : Expr} (quiet : Wholly calm sites expr) : calm expr := by
  obtain ⟨place, quiet⟩ := quiet
  rw [sites_eq_cons] at quiet
  exact quiet _ List.mem_cons_self

/-- Each statement of a calm block is calm. -/
theorem Statement.wholly_of_mem {statement : Statement} : ∀ {block : List Statement},
    Wholly calm sitesList block → statement ∈ block → Wholly calm sites statement
  | _ :: rest, ⟨place, quiet⟩, member => by
    rw [sitesList] at quiet
    obtain rfl | member := List.mem_cons.mp member
    · exact ⟨place, quiet.left⟩
    · exact wholly_of_mem ⟨_, quiet.right⟩ member

/-- So is each catch clause. -/
theorem CatchClause.wholly_of_mem {clause : CatchClause} :
    ∀ {catches : List CatchClause}, Throughout calm (sitesList place catches) → clause ∈ catches →
      Wholly calm (fun place clause => sitesList place [clause]) clause
  | .handler parameter type body :: rest, quiet, member => by
    rw [sitesList] at quiet
    obtain rfl | member := List.mem_cons.mp member
    · refine ⟨place, fun site inside => ?_⟩
      obtain inside | inside := List.mem_append.mp inside
      · exact quiet.left site inside
      · cases inside
    · exact wholly_of_mem quiet.right member

/-- So is each nested class. -/
theorem ClassDecl.wholly_of_mem {declared : ClassDecl} : ∀ {nested : List ClassDecl},
    Throughout calm (sitesList place nested) → declared ∈ nested → Wholly calm sites declared
  | first :: _, quiet, member => by
    rw [sitesList] at quiet
    obtain rfl | member := List.mem_cons.mp member
    · exact ⟨place.within _, quiet.left⟩
    · exact wholly_of_mem quiet.right member

/-- So is the initializer of a calm field. -/
theorem FieldDecl.wholly_initial {field : FieldDecl} {initial : Expr}
    (quiet : Wholly calm sites field) (initialized : field.initializer = some initial) :
    Wholly calm Expr.sites initial := by
  obtain ⟨place, quiet⟩ := quiet
  rw [sites, initialized] at quiet
  exact ⟨_, quiet⟩

namespace Pass

variable {count : Nat} {α : Type} {spared : α → Prop}

/-- A node that is to be spared is left alone, without a replacement. -/
def Spares (spared : α → Prop) (count : Nat) (before after : α) : Prop :=
  spared before → count = 0 ∧ after = before

namespace Spares

/-- What stays is spared. -/
theorem refl (node : α) : Spares spared 0 node node := fun _ => ⟨rfl, rfl⟩

/-- Sparing goes on from step to step. -/
theorem trans {more : Nat} {first second third : α} (former : Spares spared count first second)
    (latter : Spares spared more second third) : Spares spared (count + more) first third := by
  intro holds
  obtain ⟨rfl, rfl⟩ := former holds
  obtain ⟨rfl, rfl⟩ := latter holds
  exact ⟨rfl, rfl⟩

/-- Nodes are left alone together if each of them is. -/
theorem each {before after : List α} (each : Each (Spares spared) count before after) :
    Spares (fun nodes => ∀ node ∈ nodes, spared node) count before after := by
  induction each with
  | nil => exact refl []
  | cons spares _ ih =>
    intro holds
    obtain ⟨rfl, rfl⟩ := spares (holds _ List.mem_cons_self)
    obtain ⟨rfl, rfl⟩ := ih fun node member => holds node (List.mem_cons_of_mem _ member)
    exact ⟨rfl, rfl⟩

/-- A part that may be missing is spared. -/
theorem held {before after : Option α} (held : Held (Spares spared) count before after) :
    Spares (fun node => ∀ inner, node = some inner → spared inner) count before after := by
  cases held with
  | none => exact refl none
  | some spares =>
    intro holds
    obtain ⟨rfl, rfl⟩ := spares (holds _ rfl)
    exact ⟨rfl, rfl⟩

end Spares

/-! ## Visits -/

/-- An expression that is rebuilt from parts that are left alone is left alone. -/
theorem spares_of_rebuilt {expr rebuilt : Expr}
    (parts : Rebuilt (Spares (Wholly calm Expr.sites)) (Spares (Wholly calm Statement.sitesList)) count
      expr rebuilt) :
    Spares (Wholly calm Expr.sites) count expr rebuilt := by
  rintro ⟨place, quiet⟩
  cases parts with
  | literal | identifier | typeRef | classLiteral => exact ⟨rfl, rfl⟩
  | fieldAccess name type target =>
    obtain ⟨rfl, rfl⟩ := target ⟨_, quiet.tail⟩
    exact ⟨rfl, rfl⟩
  | methodCall name method select arguments =>
    cases select with
    | none =>
      obtain ⟨rfl, rfl⟩ := Spares.each arguments (Expr.wholly_of_mem quiet.tail)
      exact ⟨rfl, rfl⟩
    | some receiver =>
      obtain ⟨rfl, rfl⟩ := receiver ⟨_, quiet.tail.left⟩
      obtain ⟨rfl, rfl⟩ := Spares.each arguments (Expr.wholly_of_mem quiet.tail.right)
      exact ⟨rfl, rfl⟩
  | binary operator type left right =>
    obtain ⟨rfl, rfl⟩ := left ⟨_, quiet.tail.left⟩
    obtain ⟨rfl, rfl⟩ := right ⟨_, quiet.tail.right⟩
    exact ⟨rfl, rfl⟩
  | newClass type arguments =>
    obtain ⟨rfl, rfl⟩ := Spares.each arguments (Expr.wholly_of_mem quiet.tail)
    exact ⟨rfl, rfl⟩
  | newArray element elements =>
    obtain ⟨rfl, rfl⟩ := Spares.each elements (Expr.wholly_of_mem quiet.tail)
    exact ⟨rfl, rfl⟩
  | lambda parameters body =>
    obtain ⟨rfl, rfl⟩ := body ⟨_, quiet.tail⟩
    exact ⟨rfl, rfl⟩
  | parens inner =>
    obtain ⟨rfl, rfl⟩ := inner ⟨_, quiet.tail⟩
    exact ⟨rfl, rfl⟩

/-- A catch clause is spared with its body. -/
theorem spares_of_rebuiltCatch {clause rebuilt : CatchClause}
    (parts : RebuiltCatch (Spares (Wholly calm Statement.sitesList)) count clause rebuilt) :
    Spares (Wholly calm fun place clause => CatchClause.sitesList place [clause]) count clause
      rebuilt := by
  rintro ⟨place, quiet⟩
  cases parts with
  | handler parameter type body =>
    obtain ⟨rfl, rfl⟩ := body ⟨_, quiet.left⟩
    exact ⟨rfl, rfl⟩

/-- A statement that is rebuilt from parts that are left alone is left alone. -/
theorem spares_of_rebuiltStatement {statement rebuilt : Statement}
    (parts : RebuiltStatement (Spares (Wholly calm Expr.sites))
      (Spares (Wholly calm Statement.sitesList)) count statement rebuilt) :
    Spares (Wholly calm Statement.sites) count statement rebuilt := by
  rintro ⟨place, quiet⟩
  cases parts with
  | expression value =>
    obtain ⟨rfl, rfl⟩ := value ⟨_, quiet⟩
    exact ⟨rfl, rfl⟩
  | declaration name type initial =>
    cases initial with
    | none => exact ⟨rfl, rfl⟩
    | some initial =>
      obtain ⟨rfl, rfl⟩ := initial ⟨_, quiet⟩
      exact ⟨rfl, rfl⟩
  | block body =>
    obtain ⟨rfl, rfl⟩ := body ⟨_, quiet⟩
    exact ⟨rfl, rfl⟩
  | conditional condition thenBranch elseBranch =>
    cases elseBranch with
    | none =>
      obtain ⟨rfl, rfl⟩ := condition ⟨_, quiet.left⟩
      obtain ⟨rfl, rfl⟩ := thenBranch ⟨_, quiet.right⟩
      exact ⟨rfl, rfl⟩
    | some elseBranch =>
      obtain ⟨rfl, rfl⟩ := condition ⟨_, quiet.left⟩
      obtain ⟨rfl, rfl⟩ := thenBranch ⟨_, quiet.right.left⟩
      obtain ⟨rfl, rfl⟩ := elseBranch ⟨_, quiet.right.right⟩
      exact ⟨rfl, rfl⟩
  | guarded body catches finallyBlock =>
    have handlers := Spares.each (catches.imp fun _ _ _ => spares_of_rebuiltCatch)
    cases finallyBlock with
    | none =>
      obtain ⟨rfl, rfl⟩ := body ⟨_, quiet.left⟩
      obtain ⟨rfl, rfl⟩ := handlers fun _ => CatchClause.wholly_of_mem quiet.right
      exact ⟨rfl, rfl⟩
    | some finallyBlock =>
      obtain ⟨rfl, rfl⟩ := body ⟨_, quiet.left⟩
      obtain ⟨rfl, rfl⟩ := handlers fun _ => CatchClause.wholly_of_mem quiet.right.left
      obtain ⟨rfl, rfl⟩ := finallyBlock ⟨_, quiet.right.right⟩
      exact ⟨rfl, rfl⟩
  | returning value =>
    cases value with
    | none => exact ⟨rfl, rfl⟩
    | some value =>
      obtain ⟨rfl, rfl⟩ := value ⟨_, quiet⟩
      exact ⟨rfl, rfl⟩

section Visits

variable {rules : List Rule} {slack : Nat}

/-- Rules that heed calm expressions leave alone the expressions and blocks in which all expressions are
calm. -/
theorem spares_visitRelation (heed : ∀ rule ∈ rules, rule.Heeds calm) :
    VisitRelation rules (fun _ => True) (fun _ => Spares (Wholly calm Expr.sites))
      (fun _ => Spares (Wholly calm Statement.sitesList)) (Spares calm)
      (Spares (Wholly calm Statement.sitesList)) where
  unvisited expr := .refl expr
  node {depth count more expr rebuilt visited} parts offered := by
    intro quiet
    obtain ⟨rfl, rfl⟩ := spares_of_rebuilt parts quiet
    obtain ⟨rfl, rfl⟩ := offered (Expr.calm_of_wholly quiet)
    exact ⟨rfl, rfl⟩
  block {depth count more block replaced visited} offered parts := by
    intro quiet
    obtain ⟨rfl, rfl⟩ := offered quiet
    have statements := Spares.each (parts.imp fun _ _ _ => spares_of_rebuiltStatement)
    obtain ⟨rfl, rfl⟩ := statements fun _ => Statement.wholly_of_mem quiet
    exact ⟨rfl, rfl⟩
  offersExpr _ expr := by
    refine Yields.foldOffers Spares.refl Spares.trans rules expr fun rule member expr => ?_
    refine yields_offerExpr (fun _ _ _ _ => trivial) (.refl expr) ?_
    -- What is replaced is not calm, so nothing is claimed of it.
    intro progress replacement _ applies made changed
    exact ⟨trivial, fun quiet => absurd quiet ((heed rule member).onExpr applies made changed)⟩
  offersBlock _ block := by
    refine Yields.foldOffers Spares.refl Spares.trans rules block fun rule member block => ?_
    refine yields_offerBlock (fun _ _ _ _ => trivial) (.refl block) ?_
    intro progress replacement _ made
    refine ⟨trivial, fun quiet => ?_⟩
    obtain ⟨value, listed, restless⟩ := (heed rule member).onBlock made
    have inside : Wholly calm Expr.sites value := Statement.wholly_of_mem quiet listed
    exact absurd (Expr.calm_of_wholly inside) restless

/-- They leave alone a field in whose initializer all expressions are calm. -/
theorem spares_offerFields (heed : ∀ rule ∈ rules, rule.Heeds calm)
    (around : FieldDecl → ClassDecl) (field : FieldDecl) :
    Yields (fun _ => True) (Spares (Wholly calm FieldDecl.sites) · field)
      (rules.foldlM (offerField around) field) := by
  refine Yields.foldOffers Spares.refl Spares.trans rules field fun rule member field => ?_
  refine yields_offerField (fun _ _ _ _ => trivial) (.refl field) ?_
  intro progress replacement _ made
  refine ⟨trivial, fun quiet => ?_⟩
  obtain ⟨initial, initialized, restless⟩ := (heed rule member).onField made
  exact absurd (Expr.calm_of_wholly (FieldDecl.wholly_initial quiet initialized)) restless

/-- No replacement is made in a class in which all expressions are calm. -/
def Undisturbed (calm : Expr → Prop) (count : Nat) (before _after : ClassDecl) : Prop :=
  Wholly calm ClassDecl.sites before → count = 0

/-- Calm classes take no replacement. -/
theorem Undisturbed.each {before after : List ClassDecl}
    (each : Each (Undisturbed calm) count before after)
    (quiet : ∀ declared ∈ before, Wholly calm ClassDecl.sites declared) : count = 0 := by
  induction each with
  | nil => rfl
  | cons first _ ih =>
    obtain ⟨here, there⟩ := List.forall_mem_cons.mp quiet
    rw [first here, ih there]

/-- A class in which all expressions are calm is left alone, if those nested in it are. -/
theorem carriesOver_undisturbed (heed : ∀ rule ∈ rules, rule.Heeds calm) :
    CarriesOver rules slack (Undisturbed calm) := by
  intro header fields methods nested depth scope _ inner progress visited after _ run
  obtain ⟨first, second, third, fourth, offered, initialized, called, others, _, -, counted, onFields,
    onInitializers, onMethods, onNested, rfl⟩ :=
    (spares_visitRelation heed).visitDecl (spares_offerFields heed) (fun _ _ seen => seen) inner trivial
      run
  refine ⟨trivial, _, counted, ?_⟩
  rintro ⟨place, quiet⟩
  rw [ClassDecl.sites] at quiet
  -- Every stage gives back the members that it was given, so the next one meets calm members again.
  have spared : ∀ field ∈ fields, Wholly calm FieldDecl.sites field := fun field member =>
    ⟨place, fun site inside => quiet.left site (List.mem_flatMap.mpr ⟨field, member, inside⟩)⟩
  obtain ⟨rfl, rfl⟩ := Spares.each onFields spared
  have onInitializers : Each (Spares (Wholly calm FieldDecl.sites)) second offered initialized := by
    refine onInitializers.imp ?_
    rintro count field _ ⟨initializer, rfl, held⟩ quiet
    obtain ⟨rfl, rfl⟩ := Spares.held held fun initial => FieldDecl.wholly_initial quiet
    exact ⟨rfl, rfl⟩
  obtain ⟨rfl, rfl⟩ := Spares.each onInitializers spared
  have onMethods : Each (Spares (Wholly calm MethodDecl.sites)) third methods called := by
    refine onMethods.imp ?_
    rintro count method _ ⟨body, rfl, onBody⟩ ⟨place, quiet⟩
    obtain ⟨rfl, rfl⟩ := onBody ⟨_, quiet⟩
    exact ⟨rfl, rfl⟩
  obtain ⟨rfl, rfl⟩ := Spares.each onMethods fun method member =>
    ⟨place, fun site inside => quiet.right.left site (List.mem_flatMap.mpr ⟨method, member, inside⟩)⟩
  rw [Undisturbed.each onNested fun _ => ClassDecl.wholly_of_mem quiet.right.right]

/-- No replacement is made in a unit in which all expressions are calm. -/
theorem spares_visitUnit (heed : ∀ rule ∈ rules, rule.Heeds calm) {unit : CompilationUnit}
    (quiet : Throughout calm unit.sites) :
    Yields (fun _ => True) (fun count _ => count = 0) (visitUnit rules slack unit) := by
  intro progress visited after _ run
  obtain ⟨count, counted, each⟩ := (carriesOver_undisturbed heed).visitUnit run
  refine ⟨trivial, count, counted, Undisturbed.each each fun declared member => ⟨{}, ?_⟩⟩
  exact fun site inside => quiet site (List.mem_flatMap.mpr ⟨declared, member, inside⟩)

end Visits

end Pass

end LogCalls
