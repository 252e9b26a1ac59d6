import LogCalls.Tree.Unit
import Mathlib.Data.List.Forall2

/-! # Where expressions stand

Every expression inside a tree, with the place where it stands: how deep it is nested, whether it is the
receiver of a call, and which names are declared around it. -/

namespace LogCalls

variable {place : Place}

/-- Where an expression stands in a class. -/
structure Place where
  /-- How many classes and expressions are around it. -/
  level : Nat := 1
  /-- The expression is the receiver of a call, in parentheses or not. -/
  isReceiver : Bool := false
  /-- The parameters and local variables in scope. -/
  locals : List String := []
  /-- The names of the fields of the nested classes around it. -/
  fields : List String := []
  /-- It is in a method, and not in an argument of a call there. -/
  inBody : Bool := true
  /-- The expression is the whole initializer of a field. -/
  isInitial : Bool := false

namespace Place

/-- The place of a part of the expression at this place. -/
def inner (place : Place) : Place :=
  { place with level := place.level + 1, isReceiver := false, isInitial := false }

/-- The place of the receiver of the call at this place. -/
def receiver (place : Place) : Place :=
  { place with level := place.level + 1, isReceiver := true, isInitial := false }

/-- The place outside of bodies. -/
def aside (place : Place) : Place := { place with inBody := false }

/-- The place of the initializer of a field. -/
def initial (place : Place) : Place := { place.aside with isInitial := true }

/-- The place of an argument of the call at this place. -/
def argument (place : Place) : Place := place.inner.aside

/-- The place inside the parentheses at this place. -/
def bare (place : Place) : Place := { place with level := place.level + 1, isInitial := false }

/-- The place with more names in scope. -/
def binding (place : Place) (names : List String) : Place :=
  { place with locals := names ++ place.locals }

/-- The place of the members of a class that is nested in the class of this place. -/
def within (place : Place) (declared : ClassDecl) : Place where
  level := place.level + 1
  fields := declared.fields.map (·.name) ++ place.fields
  inBody := place.inBody

end Place

/-- An expression and where it stands. -/
structure Site extends Place where
  expr : Expr

/-- The variables that the statement declares for those after it. -/
def Statement.declared : Statement → List String
  | .declaration name _ _ => [name]
  | _ => []

mutual

/-- The sites of an expression that stands at the given place. -/
def Expr.sites (place : Place) : Expr → List Site
  | .literal value => [⟨place, .literal value⟩]
  | .identifier name type => [⟨place, .identifier name type⟩]
  | .typeRef fqn => [⟨place, .typeRef fqn⟩]
  | .fieldAccess target name type =>
    ⟨place, .fieldAccess target name type⟩ :: target.sites place.inner
  | .methodCall (some select) name arguments method =>
    ⟨place, .methodCall (some select) name arguments method⟩ ::
      (select.sites place.receiver ++ Expr.sitesList place.argument arguments)
  | .methodCall none name arguments method =>
    ⟨place, .methodCall none name arguments method⟩ :: Expr.sitesList place.argument arguments
  | .binary operator left right type =>
    ⟨place, .binary operator left right type⟩ ::
      (left.sites place.inner ++ right.sites place.inner)
  | .newClass type arguments =>
    ⟨place, .newClass type arguments⟩ :: Expr.sitesList place.inner arguments
  | .newArray element elements =>
    ⟨place, .newArray element elements⟩ :: Expr.sitesList place.inner elements
  | .classLiteral fqn => [⟨place, .classLiteral fqn⟩]
  | .lambda parameters body =>
    ⟨place, .lambda parameters body⟩ ::
      Statement.sitesList (place.inner.binding parameters) body
  | .parens inner => ⟨place, .parens inner⟩ :: inner.sites place.bare

/-- The sites of expressions that stand at the given place one after the other. -/
def Expr.sitesList (place : Place) : List Expr → List Site
  | [] => []
  | expr :: rest => expr.sites place ++ Expr.sitesList place rest

/-- The sites of a statement. -/
def Statement.sites (place : Place) : Statement → List Site
  | .expression value => value.sites place
  | .declaration _ _ (some initial) => initial.sites place
  | .declaration _ _ none => []
  | .block body => Statement.sitesList place body
  | .conditional condition thenBranch (some elseBranch) =>
    condition.sites place ++ (Statement.sitesList place thenBranch ++
      Statement.sitesList place elseBranch)
  | .conditional condition thenBranch none =>
    condition.sites place ++ Statement.sitesList place thenBranch
  | .guarded body catches (some finallyBlock) =>
    Statement.sitesList place body ++ (CatchClause.sitesList place catches ++
      Statement.sitesList place finallyBlock)
  | .guarded body catches none =>
    Statement.sitesList place body ++ CatchClause.sitesList place catches
  | .returning (some value) => value.sites place
  | .returning none => []

/-- The sites of a block. A variable is in scope after its declaration. -/
def Statement.sitesList (place : Place) : List Statement → List Site
  | [] => []
  | statement :: rest =>
    statement.sites place ++ Statement.sitesList (place.binding statement.declared) rest

/-- The sites of handlers. -/
def CatchClause.sitesList (place : Place) : List CatchClause → List Site
  | [] => []
  | .handler parameter _ body :: rest =>
    Statement.sitesList (place.binding [parameter]) body ++ CatchClause.sitesList place rest

end

/-- The sites of the initializer. -/
def FieldDecl.sites (place : Place) (field : FieldDecl) : List Site :=
  (field.initializer.map (·.sites place.initial)).getD []

/-- The sites of the body. -/
def MethodDecl.sites (place : Place) (method : MethodDecl) : List Site :=
  Statement.sitesList (place.binding (method.parameters.map (·.name))) method.body

namespace ClassDecl

mutual

/-- The sites of a class whose members stand at the given place. -/
def sites (place : Place) : ClassDecl → List Site
  | .decl _ fields methods nested =>
    fields.flatMap (·.sites place) ++ (methods.flatMap (·.sites place) ++ sitesList place nested)

/-- The sites of the classes that are nested in the class of the given place. -/
def sitesList (place : Place) : List ClassDecl → List Site
  | [] => []
  | first :: rest => first.sites (place.within first) ++ sitesList place rest

end

/-- The sites of a class outside the initializers of its fields of the given name. -/
def sitesBeside (name : String) (place : Place) : ClassDecl → List Site
  | .decl _ fields methods nested =>
    (fields.filter (·.name != name)).flatMap (·.sites place) ++
      (methods.flatMap (·.sites place) ++ sitesList place nested)

mutual

/-- The class and the classes inside it, each with the place of its members. -/
def placed (place : Place) : ClassDecl → List (Place × ClassDecl)
  | .decl header fields methods nested =>
    (place, .decl header fields methods nested) :: placedList place nested

/-- The classes that are nested in the class of the given place, and those inside them. -/
def placedList (place : Place) : List ClassDecl → List (Place × ClassDecl)
  | [] => []
  | first :: rest => first.placed (place.within first) ++ placedList place rest

end

mutual

/-- The class and the classes inside it. -/
def all : ClassDecl → List ClassDecl
  | .decl header fields methods nested => .decl header fields methods nested :: allList nested

/-- The classes and those inside them. -/
def allList : List ClassDecl → List ClassDecl
  | [] => []
  | first :: rest => first.all ++ allList rest

end

end ClassDecl

namespace CompilationUnit

/-- All sites of a unit. -/
def sites (unit : CompilationUnit) : List Site := unit.classes.flatMap (·.sites {})

/-- The classes of a unit, nested ones included. -/
def allClasses (unit : CompilationUnit) : List ClassDecl := ClassDecl.allList unit.classes

/-- The classes of a unit, each with the place of its members. -/
def placed (unit : CompilationUnit) : List (Place × ClassDecl) := unit.classes.flatMap (·.placed {})

end CompilationUnit

/-! ## Classes inside classes -/

namespace ClassDecl

/-- All nested classes, class by class. -/
theorem allList_eq_flatMap (nested : List ClassDecl) : allList nested = nested.flatMap (·.all) := by
  induction nested with
  | nil => rfl
  | cons first rest ih => rw [allList, ih, List.flatMap_cons]

mutual

/-- The placed classes are all of them. -/
theorem map_placed (place : Place) : ∀ declared : ClassDecl,
    (declared.placed place).map Prod.snd = declared.all
  | .decl _ _ _ nested => congrArg (_ :: ·) (map_placedList place nested)

/-- The same for nested classes. -/
theorem map_placedList (place : Place) : ∀ nested : List ClassDecl,
    (placedList place nested).map Prod.snd = allList nested
  | [] => rfl
  | first :: rest => by
    rw [placedList, List.map_append, map_placed, map_placedList, allList]

end

mutual

/-- The sites of a class inside are sites of the whole. -/
theorem mem_sites_of_placed {place inner : Place} {declared : ClassDecl} {site : Site}
    (inside : site ∈ declared.sites inner) : ∀ outer : ClassDecl,
      (inner, declared) ∈ outer.placed place → site ∈ outer.sites place
  | .decl header fields methods nested, member => by
    obtain same | member := List.mem_cons.mp member
    · cases same
      exact inside
    · exact List.mem_append_right _ (List.mem_append_right _
        (mem_sitesList_of_placed inside nested member))

/-- Sites of a placed class are in the list. -/
theorem mem_sitesList_of_placed {place inner : Place} {declared : ClassDecl} {site : Site}
    (inside : site ∈ declared.sites inner) : ∀ nested : List ClassDecl,
      (inner, declared) ∈ placedList place nested → site ∈ sitesList place nested
  | first :: rest, member => by
    obtain here | later := List.mem_append.mp member
    · exact List.mem_append_left _ (mem_sites_of_placed inside first here)
    · exact List.mem_append_right _ (mem_sitesList_of_placed inside rest later)

end

mutual

/-- The classes inside a class are listed together. -/
theorem sublist_all {declared : ClassDecl} : ∀ outer : ClassDecl,
    declared ∈ outer.all → declared.all.Sublist outer.all
  | .decl header fields methods nested, member => by
    obtain rfl | inside := List.mem_cons.mp member
    · exact .refl _
    · exact .cons _ (sublist_allList nested inside)

/-- The same in a list of classes. -/
theorem sublist_allList {declared : ClassDecl} : ∀ nested : List ClassDecl,
    declared ∈ allList nested → declared.all.Sublist (allList nested)
  | first :: rest, member => by
    obtain here | later := List.mem_append.mp member
    · exact (sublist_all first here).trans (List.sublist_append_left _ _)
    · exact (sublist_allList rest later).trans (List.sublist_append_right _ _)

end

end ClassDecl

namespace CompilationUnit

variable {unit : CompilationUnit}

/-- All classes of a unit are placed. -/
theorem map_placed (unit : CompilationUnit) : unit.placed.map Prod.snd = unit.allClasses := by
  rw [placed, allClasses, List.map_flatMap, ClassDecl.allList_eq_flatMap]
  exact List.flatMap_congr fun declared _ => declared.map_placed {}

/-- Sites of a placed class are in the unit. -/
theorem mem_sites_of_placed {declared : ClassDecl}
    (member : (place, declared) ∈ unit.placed) {site : Site} (inside : site ∈ declared.sites place) :
    site ∈ unit.sites := by
  obtain ⟨outer, listed, member⟩ := List.mem_flatMap.mp member
  exact List.mem_flatMap.mpr ⟨outer, listed, ClassDecl.mem_sites_of_placed inside outer member⟩

end CompilationUnit

/-! ## Sites at other places -/

namespace Expr

/-- The sites of the parts of an expression. -/
def parts (place : Place) (expr : Expr) : List Site := (expr.sites place).tail

/-- The first site is the expression itself. -/
theorem sites_eq_cons (place : Place) (expr : Expr) :
    expr.sites place = ⟨place, expr⟩ :: expr.parts place := by
  cases expr with
  | methodCall select => cases select <;> rfl
  | _ => rfl

/-- An expression stands at its own place. -/
theorem mem_sites_self (place : Place) (expr : Expr) : ⟨place, expr⟩ ∈ expr.sites place := by
  rw [sites_eq_cons]
  exact List.mem_cons_self

/-- Sites of arguments, one by one. -/
theorem sitesList_eq_flatMap (place : Place) (exprs : List Expr) :
    sitesList place exprs = exprs.flatMap (·.sites place) := by
  induction exprs with
  | nil => rfl
  | cons expr rest ih => rw [sitesList, ih, List.flatMap_cons]

end Expr

/-- What is in a list of related nodes is related to something. -/
theorem exists_of_forall₂ {α β : Type} {related : α → β → Prop} {nodes : List α} {others : List β}
    (matched : List.Forall₂ related nodes others) {other : β} (member : other ∈ others) :
    ∃ node ∈ nodes, related node other := by
  induction matched with
  | nil => cases member
  | cons both _ ih =>
    obtain rfl | inside := List.mem_cons.mp member
    · exact ⟨_, List.mem_cons_self, both⟩
    · obtain ⟨node, found, matching⟩ := ih inside
      exact ⟨node, List.mem_cons_of_mem _ found, matching⟩

/-- A relation between places that goes along with the steps from an expression to its parts. -/
structure Place.Steady (related : Place → Place → Prop) : Prop where
  inner {place other : Place} : related place other → related place.inner other.inner
  receiver {place other : Place} : related place other → related place.receiver other.receiver
  bare {place other : Place} : related place other → related place.bare other.bare
  aside {place other : Place} : related place other → related place.aside other.aside
  binding {place other : Place} (names : List String) :
    related place other → related (place.binding names) (other.binding names)

/-- It also goes along with the steps from a class to its members. -/
structure Place.SteadyInside (related : Place → Place → Prop) : Prop extends Place.Steady related where
  initial {place other : Place} : related place other → related place.initial other.initial
  within {place other : Place} (declared : ClassDecl) :
    related place other → related (place.within declared) (other.within declared)

/-- The same names are in scope at both places. -/
structure Place.SameNames (place other : Place) : Prop where
  fields : place.fields = other.fields
  locals : place.locals = other.locals

/-- Where the same names are in scope, they are for the parts as well. -/
theorem Place.steady_sameNames : Place.SteadyInside Place.SameNames where
  inner same := ⟨same.fields, same.locals⟩
  receiver same := ⟨same.fields, same.locals⟩
  bare same := ⟨same.fields, same.locals⟩
  aside same := ⟨same.fields, same.locals⟩
  binding names same := ⟨same.fields, congrArg (names ++ ·) same.locals⟩
  initial same := ⟨same.fields, same.locals⟩
  within declared same := ⟨congrArg (declared.fields.map (·.name) ++ ·) same.fields, rfl⟩

/-- The same expression stands at related places. -/
def Site.Matches (related : Place → Place → Prop) (site other : Site) : Prop :=
  site.expr = other.expr ∧ related site.toPlace other.toPlace

section Matches

variable {related : Place → Place → Prop}

mutual

/-- At a related place the same expressions stand at related places. -/
theorem Expr.forall₂_sites (steady : Place.Steady related) {place other : Place}
    (relates : related place other) : ∀ expr : Expr,
      List.Forall₂ (Site.Matches related) (expr.sites place) (expr.sites other)
  | .literal _ => .cons ⟨rfl, relates⟩ .nil
  | .identifier _ _ => .cons ⟨rfl, relates⟩ .nil
  | .typeRef _ => .cons ⟨rfl, relates⟩ .nil
  | .classLiteral _ => .cons ⟨rfl, relates⟩ .nil
  | .fieldAccess target _ _ =>
    .cons ⟨rfl, relates⟩ (Expr.forall₂_sites steady (steady.inner relates) target)
  | .methodCall (some select) _ arguments _ =>
    .cons ⟨rfl, relates⟩ (List.rel_append
      (Expr.forall₂_sites steady (steady.receiver relates) select)
      (Expr.forall₂_sitesList steady (steady.aside (steady.inner relates)) arguments))
  | .methodCall none _ arguments _ => .cons ⟨rfl, relates⟩
      (Expr.forall₂_sitesList steady (steady.aside (steady.inner relates)) arguments)
  | .binary _ left right _ =>
    .cons ⟨rfl, relates⟩ (List.rel_append
      (Expr.forall₂_sites steady (steady.inner relates) left)
      (Expr.forall₂_sites steady (steady.inner relates) right))
  | .newClass _ arguments =>
    .cons ⟨rfl, relates⟩ (Expr.forall₂_sitesList steady (steady.inner relates) arguments)
  | .newArray _ elements =>
    .cons ⟨rfl, relates⟩ (Expr.forall₂_sitesList steady (steady.inner relates) elements)
  | .lambda parameters body =>
    .cons ⟨rfl, relates⟩ (Statement.forall₂_sitesList steady
      (steady.binding parameters (steady.inner relates)) body)
  | .parens inner => .cons ⟨rfl, relates⟩ (Expr.forall₂_sites steady (steady.bare relates) inner)

/-- The same for arguments. -/
theorem Expr.forall₂_sitesList (steady : Place.Steady related) {place other : Place}
    (relates : related place other) : ∀ exprs : List Expr,
      List.Forall₂ (Site.Matches related) (Expr.sitesList place exprs) (Expr.sitesList other exprs)
  | [] => .nil
  | expr :: rest => List.rel_append (Expr.forall₂_sites steady relates expr)
      (Expr.forall₂_sitesList steady relates rest)

/-- The same for statements. -/
theorem Statement.forall₂_sites (steady : Place.Steady related) {place other : Place}
    (relates : related place other) : ∀ statement : Statement,
      List.Forall₂ (Site.Matches related) (statement.sites place) (statement.sites other)
  | .expression value => Expr.forall₂_sites steady relates value
  | .declaration _ _ (some initial) => Expr.forall₂_sites steady relates initial
  | .declaration _ _ none => .nil
  | .block body => Statement.forall₂_sitesList steady relates body
  | .conditional condition thenBranch (some elseBranch) =>
    List.rel_append (Expr.forall₂_sites steady relates condition)
      (List.rel_append (Statement.forall₂_sitesList steady relates thenBranch)
        (Statement.forall₂_sitesList steady relates elseBranch))
  | .conditional condition thenBranch none =>
    List.rel_append (Expr.forall₂_sites steady relates condition)
      (Statement.forall₂_sitesList steady relates thenBranch)
  | .guarded body catches (some finallyBlock) =>
    List.rel_append (Statement.forall₂_sitesList steady relates body)
      (List.rel_append (CatchClause.forall₂_sitesList steady relates catches)
        (Statement.forall₂_sitesList steady relates finallyBlock))
  | .guarded body catches none =>
    List.rel_append (Statement.forall₂_sitesList steady relates body)
      (CatchClause.forall₂_sitesList steady relates catches)
  | .returning (some value) => Expr.forall₂_sites steady relates value
  | .returning none => .nil

/-- The same for blocks. -/
theorem Statement.forall₂_sitesList (steady : Place.Steady related) {place other : Place}
    (relates : related place other) : ∀ block : List Statement,
      List.Forall₂ (Site.Matches related) (Statement.sitesList place block)
        (Statement.sitesList other block)
  | [] => .nil
  | statement :: rest => List.rel_append (Statement.forall₂_sites steady relates statement)
      (Statement.forall₂_sitesList steady (steady.binding statement.declared relates) rest)

/-- The same for catch clauses. -/
theorem CatchClause.forall₂_sitesList (steady : Place.Steady related) {place other : Place}
    (relates : related place other) : ∀ catches : List CatchClause,
      List.Forall₂ (Site.Matches related) (CatchClause.sitesList place catches)
        (CatchClause.sitesList other catches)
  | [] => .nil
  | .handler parameter _ body :: rest => List.rel_append
      (Statement.forall₂_sitesList steady (steady.binding [parameter] relates) body)
      (CatchClause.forall₂_sitesList steady relates rest)

end

/-- What goes along with the steps from an expression to its parts is true of all its places. -/
theorem Expr.forall_sites {holds : Place → Prop} (steady : Place.Steady fun _ other => holds other)
    (here : holds place) (expr : Expr) :
    ∀ site ∈ expr.sites place, holds site.toPlace := by
  have matched : List.Forall₂ (Site.Matches fun _ other => holds other) (expr.sites place)
      (expr.sites place) := expr.forall₂_sites steady here
  exact fun site member => (List.forall₂_same.mp matched site member).2

/-- The sites of members match if those of each member do. -/
theorem forall₂_flatMap_sites {α : Type} {sites : Place → α → List Site} {other : Place}
    (each : ∀ member : α,
      List.Forall₂ (Site.Matches related) (sites place member) (sites other member)) :
    ∀ members : List α, List.Forall₂ (Site.Matches related) (members.flatMap (sites place))
      (members.flatMap (sites other))
  | [] => .nil
  | member :: rest => by
    rw [List.flatMap_cons, List.flatMap_cons]
    exact List.rel_append (each member) (forall₂_flatMap_sites each rest)

/-- Sites of a field match. -/
theorem FieldDecl.forall₂_sites (steady : Place.SteadyInside related) {other : Place}
    (relates : related place other) (field : FieldDecl) :
    List.Forall₂ (Site.Matches related) (field.sites place) (field.sites other) := by
  unfold FieldDecl.sites
  cases field.initializer with
  | none => exact .nil
  | some initial => exact initial.forall₂_sites steady.toSteady (steady.initial relates)

/-- Sites of a method match. -/
theorem MethodDecl.forall₂_sites (steady : Place.SteadyInside related) {other : Place}
    (relates : related place other) (method : MethodDecl) :
    List.Forall₂ (Site.Matches related) (method.sites place) (method.sites other) :=
  Statement.forall₂_sitesList steady.toSteady (steady.binding _ relates) method.body

mutual

/-- In a class at a related place the same expressions stand at related places. -/
theorem ClassDecl.forall₂_sites (steady : Place.SteadyInside related) {place other : Place}
    (relates : related place other) : ∀ declared : ClassDecl,
      List.Forall₂ (Site.Matches related) (declared.sites place) (declared.sites other)
  | .decl _ fields methods nested => List.rel_append
      (forall₂_flatMap_sites (FieldDecl.forall₂_sites steady relates) fields)
      (List.rel_append (forall₂_flatMap_sites (MethodDecl.forall₂_sites steady relates) methods)
        (ClassDecl.forall₂_sitesList steady relates nested))

/-- The same for nested classes. -/
theorem ClassDecl.forall₂_sitesList (steady : Place.SteadyInside related) {place other : Place}
    (relates : related place other) : ∀ nested : List ClassDecl,
      List.Forall₂ (Site.Matches related) (ClassDecl.sitesList place nested)
        (ClassDecl.sitesList other nested)
  | [] => .nil
  | first :: rest => List.rel_append
      (ClassDecl.forall₂_sites steady (steady.within first relates) first)
      (ClassDecl.forall₂_sitesList steady relates rest)

end

/-- The same beside a field. -/
theorem ClassDecl.forall₂_sitesBeside (steady : Place.SteadyInside related) {other : Place}
    (relates : related place other) (name : String) (declared : ClassDecl) :
    List.Forall₂ (Site.Matches related) (declared.sitesBeside name place)
      (declared.sitesBeside name other) := by
  cases declared with
  | decl header fields methods nested =>
    exact List.rel_append (forall₂_flatMap_sites (FieldDecl.forall₂_sites steady relates) _)
      (List.rel_append (forall₂_flatMap_sites (MethodDecl.forall₂_sites steady relates) methods)
        (ClassDecl.forall₂_sitesList steady relates nested))

end Matches

end LogCalls
