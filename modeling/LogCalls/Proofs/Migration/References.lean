import LogCalls.Proofs.Migration.Visits

/-! # References and the calls through them

What a pass that migrates loggers makes of the references to a variable. If the variable stands for a
field that has moved to the target framework, every call through it moves as well. Else the calls
through it stay as they are. -/

namespace LogCalls

variable {site : Site} {head : CallHead}

/-- The expression is a call. -/
def Expr.isCall : Expr → Bool
  | .methodCall _ _ _ _ => true
  | _ => false

/-! ## Places -/

section Places

variable {place other : Place} {expr : Expr}

/-- What the sites of an expression weigh does not depend on where it stands in a class. -/
theorem Expr.total_sites (weigh : List String → Expr → Nat) (same : place.fields = other.fields)
    (expr : Expr) : total (fun site => weigh site.fields site.expr) (expr.sites place) =
      total (fun site => weigh site.fields site.expr) (expr.sites other) := by
  have steady : Place.Steady fun place other => place.fields = other.fields :=
    ⟨id, id, id, id, fun _ => id⟩
  have matched := expr.forall₂_sites steady same
  generalize expr.sites place = sites at matched
  generalize expr.sites other = others at matched
  induction matched with
  | nil => rfl
  | @cons site other _ _ both _ ih =>
    have same : weigh site.fields site.expr = weigh other.fields other.expr := by
      rw [both.1, both.2]
    rw [total_cons, total_cons, same, ih]

/-- Neither does how many of them pass a test. -/
theorem Expr.countP_sites (marked : List String → Expr → Bool) (same : place.fields = other.fields)
    (expr : Expr) : (expr.sites place).countP (fun site => marked site.fields site.expr) =
      (expr.sites other).countP (fun site => marked site.fields site.expr) := by
  rw [countP_eq_total, countP_eq_total]
  exact expr.total_sites (fun fields expr => if marked fields expr then 1 else 0) same

/-- The sites of expressions weigh as much as those of each. -/
theorem Expr.total_sitesList (weigh : Site → Nat) (place : Place) (exprs : List Expr) :
    total weigh (Expr.sitesList place exprs) =
      total (fun expr => total weigh (expr.sites place)) exprs := by
  induction exprs with
  | nil => rfl
  | cons expr rest ih => rw [Expr.sitesList, total_append, ih, total_cons]

/-- As many of them pass a test as of each. -/
theorem Expr.countP_sitesList (marked : Site → Bool) (place : Place) (exprs : List Expr) :
    (Expr.sitesList place exprs).countP marked =
      total (fun expr => (expr.sites place).countP marked) exprs := by
  simp only [countP_eq_total, Expr.total_sitesList]

/-- What only calls weigh adds up over an expression. -/
theorem Expr.valuation_sites (weigh : List String → Expr → Nat) (place : Place)
    (calls : ∀ expr : Expr, expr.isCall = false → weigh place.fields expr = 0) :
    Valuation (fun expr => total (fun site => weigh site.fields site.expr) (expr.sites place)) 0 := by
  have top {expr : Expr} (other : expr.isCall = false) :
      total (fun site => weigh site.fields site.expr) (expr.sites place) =
        total (fun site => weigh site.fields site.expr) (expr.parts place) := by
    rw [Expr.sites_eq_cons, total_cons, calls expr other, Nat.zero_add]
  have inside (other : Place) (same : other.fields = place.fields) (expr : Expr) :
      total (fun site => weigh site.fields site.expr) (expr.sites other) =
        total (fun site => weigh site.fields site.expr) (expr.sites place) :=
    expr.total_sites weigh same
  have list (other : Place) (same : other.fields = place.fields) (exprs : List Expr) :
      total (fun site => weigh site.fields site.expr) (Expr.sitesList other exprs) =
        total (fun expr => total (fun site => weigh site.fields site.expr) (expr.sites place))
          exprs := by
    rw [Expr.total_sitesList]
    exact congrArg (total · exprs) (funext (inside other same))
  exact {
    literal := fun _ => top rfl
    identifier := fun _ _ => top rfl
    typeRef := fun _ => top rfl
    classLiteral := fun _ => top rfl
    fieldAccess := fun target _ _ => (top rfl).trans (inside place.inner rfl target)
    parens := fun inner => (top rfl).trans (inside place.bare rfl inner)
    binary := fun _ left right _ => by
      rw [top rfl]
      change total _ (left.sites place.inner ++ right.sites place.inner) = _
      rw [total_append, inside place.inner rfl, inside place.inner rfl]
    newArray := fun _ elements => (top rfl).trans (list place.inner rfl elements)
    call := fun select name arguments method => by
      rw [Expr.sites_eq_cons, total_cons]
      have := list place.argument rfl arguments
      cases select with
      | none =>
        change _ ≤ _ + total _ (Expr.sitesList place.argument arguments)
        simp only [Option.toList_none, total_nil]
        omega
      | some select =>
        have := inside place.receiver rfl select
        change _ ≤ _ + total _ (select.sites place.receiver ++
          Expr.sitesList place.argument arguments)
        rw [total_append]
        simp only [Option.toList_some, total_cons, total_nil]
        omega }

/-- Without the parentheses around it an expression is still one of its sites. -/
theorem Expr.exists_site_bare (place : Place) (expr : Expr) :
    ∃ site ∈ expr.sites place, site.expr = expr.bare := by
  fun_induction Expr.bare expr generalizing place with
  | case1 inner ih =>
    obtain ⟨site, member, same⟩ := ih place.bare
    exact ⟨site, List.mem_cons_of_mem _ member, same⟩
  | case2 expr => exact ⟨⟨place, expr⟩, expr.mem_sites_self place, rfl⟩

/-- The parts of an expression stand at least as deep as the expression. -/
theorem Expr.le_level (member : site ∈ expr.sites place) : place.level ≤ site.level := by
  have steady : Place.Steady fun _ other => place.level ≤ other.level :=
    ⟨Nat.le_succ_of_le, Nat.le_succ_of_le, Nat.le_succ_of_le, id, fun _ => id⟩
  exact expr.forall_sites steady (Nat.le_refl _) site member

end Places

/-! ## References -/

/-- Which expressions refer to a variable, given the names of the fields of the nested classes around
them. -/
abbrev Reference := List String → Expr → Bool

/-- A call without its arguments. -/
structure CallHead where
  receiver : Expr
  name : String
  /-- The number of arguments. -/
  arity : Nat
  method : Option ResolvedMethod
  deriving DecidableEq

/-- The method is one of class objects. -/
def CallHead.isOnClass (head : CallHead) : Bool :=
  head.method.any (·.declaringType == ClassName.classObject)

namespace Expr

/-- The call on a receiver that passes the test, if the expression is one. -/
def headThrough? (refers : Expr → Bool) : Expr → Option CallHead
  | .methodCall (some receiver) name arguments method =>
    if refers receiver then some { receiver, name, arity := arguments.length, method } else none
  | _ => none

theorem headThrough?_eq_some {refers : Expr → Bool} {expr : Expr}
    (found : expr.headThrough? refers = some head) :
    ∃ arguments, expr = .methodCall (some head.receiver) head.name arguments head.method ∧
      refers head.receiver = true ∧ head.arity = arguments.length := by
  unfold headThrough? at found
  split at found
  · rename_i receiver name arguments method
    split at found
    · rename_i through
      cases found
      exact ⟨arguments, rfl, through, rfl⟩
    · cases found
  · cases found

/-- A call that logs, or a check, whose result could be taken for an exception. -/
def isLoud (expr : Expr) : Bool := expr.usesLogger && expr.isThrowable

end Expr

/-- A pass reaches the site if a call stands there, with some room below, and no use of a logger there
is taken for an exception. -/
structure Site.Clear (room : Nat) (site : Site) : Prop where
  near : site.expr.isCall = true → site.level + room < Pass.maxDepth
  quiet : site.expr.isLoud = false

theorem Site.Clear.zero (clear : site.Clear 1) : site.Clear 0 :=
  { clear with near := fun call => Nat.lt_of_succ_lt (clear.near call) }

namespace Reference

/-- The calls through the variable. -/
def calls (refers : Reference) (sites : List Site) : List CallHead :=
  sites.filterMap fun site => site.expr.headThrough? (refers site.fields)

theorem count_calls (refers : Reference) (head : CallHead) (sites : List Site) :
    (refers.calls sites).count head =
      sites.countP fun site => site.expr.headThrough? (refers site.fields) == some head :=
  List.count_filterMap

/-- The calls through the variable in methods, those in arguments of other calls left out. -/
def bodyCalls (refers : Reference) (sites : List Site) : List CallHead :=
  refers.calls (sites.filter (·.inBody))

/-- The variable is used at the site as a logger of the target framework, if at all. -/
structure Moved (refers : Reference) (target : Framework) (site : Site) : Prop where
  /-- It is the receiver of a call. -/
  isReceiver : refers site.fields site.expr = true → site.isReceiver = true
  /-- The call is one of the target's loggers. -/
  declaringType : ∀ head, site.expr.headThrough? (refers site.fields) = some head →
    ∃ method, head.method = some method ∧ method.declaringType = target.loggerType

/-- Where the same expression stands as a receiver as well, it is used as well as a logger. -/
theorem Moved.congr {refers : Reference} {target : Framework} {other : Site}
    (moved : refers.Moved target site) (same : site.expr = other.expr)
    (fields : site.fields = other.fields)
    (receives : site.isReceiver = true → other.isReceiver = true) : refers.Moved target other := by
  refine ⟨fun through => receives (moved.isReceiver ?_), fun head found => moved.declaringType head ?_⟩
  · rw [same, fields]
    exact through
  · rw [same, fields]
    exact found

/-- The variable is used at the site as a logger, if at all, and the use can be carried over if that has
not been done. -/
structure Movable (refers : Reference) (settings : Migrate) (site : Site) : Prop where
  isReceiver : refers site.fields site.expr = true → site.isReceiver = true
  planned : ∀ head, site.expr.headThrough? (refers site.fields) = some head →
    (∃ method, head.method = some method ∧
      method.declaringType = settings.target.loggerType) ∨
      (settings.plan? site.expr).isSome = true

/-- A use at the site can be carried over, and a pass reaches it. -/
structure Ready (refers : Reference) (settings : Migrate) (room : Nat) (site : Site) : Prop
    extends refers.Movable settings site, site.Clear room

/-- References are names, and what is written for the target framework has none. -/
structure Lawful (refers : Reference) (target : Framework) : Prop where
  pure {fields : List String} {expr : Expr} : refers fields expr = true → expr.isPure = true
  parens {fields : List String} {inner : Expr} :
    refers fields (.parens inner) = refers fields inner
  retyped {fields : List String} {type : JavaType} {expr other : Expr} :
    expr.retyped? type = some other → refers fields other = refers fields expr
  literal {fields : List String} {value : Literal} : refers fields (.literal value) = false
  typeRef {fields : List String} {fqn : String} : refers fields (.typeRef fqn) = false
  classLiteral {fields : List String} {fqn : String} : refers fields (.classLiteral fqn) = false
  constant {fields : List String} {levelType constant : String} :
    target.levelType? = some levelType → refers fields (.constant levelType constant) = false

/-- References are the same with and without parentheses. -/
theorem Lawful.bare {refers : Reference} {target : Framework} (lawful : refers.Lawful target)
    {fields : List String} (expr : Expr) : refers fields expr.bare = refers fields expr := by
  fun_induction Expr.bare expr with
  | case1 inner ih => rw [ih, lawful.parens]
  | case2 => rfl

end Reference

namespace Migrate

variable {settings : Migrate} {scope : Scope} {fields : List String}

/-! ## Calls that are left alone -/

/-- A variable stands for no field of the target framework. -/
def Unsettled (settings : Migrate) (scope : Scope) (fields : List String) (refers : Reference) : Prop :=
  ∀ expr field, refers fields expr = true → scope.fieldFor? expr = some field →
    field.type.typeName ≠ settings.target.loggerType

/-- A use of a logger that is carried over is not through the variable, and neither is the new call. -/
theorem Unsettled.refers_eq_false {refers : Reference} (unsettled : settings.Unsettled scope fields refers)
    (lawful : refers.Lawful settings.target) {select receiver : Expr} {field : FieldDecl}
    (found : scope.fieldFor? select = some field)
    (moved : field.type.typeName = settings.target.loggerType)
    (known : select.retyped? settings.loggerType = some receiver) :
    refers fields select = false ∧ refers fields receiver = false := by
  have old : refers fields select = false := by
    cases through : refers fields select with
    | false => rfl
    | true => exact absurd moved (unsettled select field through found)
  exact ⟨old, (lawful.retyped known).trans old⟩

/-- The logger that such a call is made on counts as much as before. -/
theorem retyped?_valuation {value : Expr → Nat} (valuation : Valuation value 0) {type : JavaType}
    {expr other : Expr} (known : expr.retyped? type = some other) : value other = value expr := by
  obtain ⟨name, type, rfl, rfl⟩ | ⟨target, name, type, rfl, rfl⟩ := Expr.retyped?_cases known
  · rw [valuation.identifier, valuation.identifier]
  · rw [valuation.fieldAccess, valuation.fieldAccess]

/-- Calls that a pass leaves alone: it makes none of them. -/
structure Marks (settings : Migrate) (scope : Scope) (fields : List String)
    (marked : List String → Expr → Bool) : Prop where
  call {expr : Expr} : marked fields expr = true → expr.isCall = true
  rebuilt {count : Nat} {before after : Expr} :
    Pass.Rebuilt (fun _ => Kept) (fun _ _ _ => True) count before after →
      marked fields after = true → marked fields before = true
  carried {select : Expr} {name : String} {arguments : List Expr} {method : ResolvedMethod}
    {receiver : Expr} {newName : String} {others : List Expr} {written : ResolvedMethod}
    {field : FieldDecl} : scope.fieldFor? select = some field →
    field.type.typeName = settings.target.loggerType →
    settings.CarriesOver select name arguments method receiver newName others written →
      marked fields (.methodCall (some receiver) newName others (some written)) = false
  factory (key : LoggerKey) (owner : String) :
    marked fields (settings.target.factoryCall key owner) = false
  className (expr : Expr) : marked fields expr.classNameCall = false

namespace Marks

variable {marked : List String → Expr → Bool}

/-- The calls in an expression are a valuation of it. -/
theorem valuation (marks : Marks settings scope fields marked) (place : Place)
    (here : place.fields = fields) :
    Valuation (fun expr => (expr.sites place).countP fun site => marked site.fields site.expr) 0 := by
  simp only [countP_eq_total]
  refine Expr.valuation_sites (fun fields expr => if marked fields expr then 1 else 0) place ?_
  intro expr other
  rw [here, if_neg]
  exact fun found => Bool.noConfusion ((marks.call found).symm.trans other)

/-- **A pass adds no marked calls.** -/
theorem siteLaw (marks : Marks settings scope fields marked) :
    SiteLaw settings scope fields fun before after =>
      after.countP (fun site => marked site.fields site.expr) ≤
        before.countP fun site => marked site.fields site.expr where
  nil := Nat.le_refl _
  append first second := by
    rw [List.countP_append, List.countP_append]
    omega
  deep place expr _ := Nat.le_refl _
  node {place count before rebuilt} here parts inner := by
    obtain ⟨-, same⟩ | ⟨select, name, arguments, method, receiver, newName, others, written, field,
      rfl, same, found, moved, carries⟩ := settings.carry_cases scope rebuilt
    · rw [same, Expr.sites_eq_cons, Expr.sites_eq_cons, List.countP_cons, List.countP_cons]
      have top := marks.rebuilt parts.kept
      rw [← here] at top
      dsimp only
      split
      · rename_i marked
        rw [if_pos (top marked)]
        omega
      · omega
    · -- The new call is not marked, and it holds no more than the call that it is written for.
      have unmarked : marked place.fields (.methodCall (some receiver) newName others (some written)) =
          false := here ▸ marks.carried found moved carries
      have valuation := marks.valuation place.argument here
      have held := carries.total_le valuation
      have through : (receiver.sites place.receiver).countP (fun site => marked site.fields site.expr) =
          (select.sites place.receiver).countP fun site => marked site.fields site.expr :=
        retyped?_valuation (marks.valuation place.receiver here) carries.retyped
      rw [same, Expr.sites_eq_cons place before, Expr.sites, List.countP_cons, List.countP_cons,
        if_neg (by simp [unmarked]), List.countP_append, Expr.countP_sitesList, through]
      change (select.sites place.receiver ++
        Expr.sitesList place.argument arguments).countP _ ≤ _ at inner
      rw [List.countP_append, Expr.countP_sitesList] at inner
      omega

end Marks

/-- A receiver that refers to the variable is visited without a change. -/
theorem refers_of_kept {refers : Reference} (lawful : refers.Lawful settings.target)
    {before after : Expr} (kept : Kept before after) (through : refers fields after = true) :
    after = before := by
  refine kept.pure ?_
  rw [← kept.alike.isPure]
  exact lawful.pure through

/-- A call is through the variable if it was before its arguments were visited. -/
theorem headThrough?_of_rebuilt {refers : Reference} (lawful : refers.Lawful settings.target)
    {onBlock : Nat → List Statement → List Statement → Prop} {count : Nat} {before after : Expr}
    (parts : Pass.Rebuilt (fun _ => Kept) onBlock count before after) :
    after.headThrough? (refers fields) = before.headThrough? (refers fields) := by
  cases parts with
  | methodCall name method visited others =>
    cases visited with
    | none => rfl
    | @some _ select visited kept =>
      have same := (alikeList_of_kept others).length
      by_cases through : refers fields select = true
      · rw [kept.pure (lawful.pure through), Expr.headThrough?, Expr.headThrough?, same]
      · have other : ¬ refers fields visited = true := fun found =>
          through (refers_of_kept lawful kept found ▸ found)
        rw [Expr.headThrough?, Expr.headThrough?, if_neg through, if_neg other]
  | _ => rfl

/-- The calls through a variable that stands for no field of the target framework are left alone. A
class object may be asked for its name, but that is no use of a logger. -/
theorem marks_calls {refers : Reference} (lawful : refers.Lawful settings.target)
    (unsettled : settings.Unsettled scope fields refers)
    (logs : head.isOnClass = false) :
    Marks settings scope fields fun fields expr =>
      expr.headThrough? (refers fields) == some head where
  call found := by
    obtain ⟨arguments, rfl, -⟩ := Expr.headThrough?_eq_some (beq_iff_eq.mp found)
    rfl
  rebuilt parts found := by
    rw [← headThrough?_of_rebuilt lawful parts]
    exact found
  carried found moved carries := by
    rw [Expr.headThrough?, (unsettled.refers_eq_false lawful found moved carries.retyped).2]
    rfl
  factory key owner := by
    rw [Framework.factoryCall, Expr.staticCall, Expr.call, Expr.headThrough?, lawful.typeRef]
    rfl
  className expr := by
    refine beq_eq_false_iff_ne.mpr fun found => ?_
    rw [Expr.classNameCall, Expr.call, Expr.headThrough?] at found
    split at found
    · cases found
      cases logs
    · cases found

theorem bodyCalls_append (refers : Reference) (front back : List Site) :
    refers.bodyCalls (front ++ back) = refers.bodyCalls front ++ refers.bodyCalls back := by
  rw [Reference.bodyCalls, List.filter_append, Reference.calls, List.filterMap_append]
  rfl

theorem bodyCalls_sites (refers : Reference) (place : Place) (expr : Expr) :
    refers.bodyCalls (expr.sites place) =
      (if place.inBody then (expr.headThrough? (refers place.fields)).toList else []) ++
        refers.bodyCalls (expr.parts place) := by
  rw [Expr.sites_eq_cons, Reference.bodyCalls, List.filter_cons]
  dsimp only
  split
  · rw [Reference.calls, List.filterMap_cons]
    cases expr.headThrough? (refers place.fields) <;> rfl
  · rfl

/-- What stands outside of bodies has nothing in a body. -/
theorem bodyCalls_outside (refers : Reference) {place : Place} (outside : place.inBody = false)
    (exprs : List Expr) : refers.bodyCalls (Expr.sitesList place exprs) = [] := by
  have steady : Place.Steady fun _ other => other.inBody = false :=
    ⟨id, id, id, fun _ => rfl, fun _ => id⟩
  have nothing : (Expr.sitesList place exprs).filter (·.inBody) = [] := by
    rw [List.filter_eq_nil_iff, Expr.sitesList_eq_flatMap, List.forall_mem_flatMap]
    intro expr _ site member
    rw [expr.forall_sites steady outside site member]
    exact Bool.false_ne_true
  rw [Reference.bodyCalls, nothing]
  rfl

/-- **Calls stay as they are with their field.** If a variable stands for no field of the target
framework, the calls through it in methods are the same after a pass, but for what is in their
arguments. -/
theorem siteLaw_of_unsettled {refers : Reference} (lawful : refers.Lawful settings.target)
    (unsettled : settings.Unsettled scope fields refers) :
    SiteLaw settings scope fields fun before after =>
      refers.bodyCalls after = refers.bodyCalls before where
  nil := rfl
  append first second := by rw [bodyCalls_append, bodyCalls_append, first, second]
  deep _ _ _ := rfl
  node {place count before rebuilt} here parts inner := by
    subst here
    have whole : refers.bodyCalls (rebuilt.sites place) = refers.bodyCalls (before.sites place) := by
      rw [bodyCalls_sites, bodyCalls_sites, inner, headThrough?_of_rebuilt lawful parts.kept]
    rw [← whole]
    obtain ⟨-, same⟩ | ⟨select, name, arguments, method, receiver, newName, others, written, field,
      rfl, same, found, moved, carries⟩ := settings.carry_cases scope rebuilt
    · rw [same]
    · obtain ⟨old, new⟩ := unsettled.refers_eq_false lawful found moved carries.retyped
      have through : refers.bodyCalls (receiver.sites place.receiver) =
          refers.bodyCalls (select.sites place.receiver) := by
        obtain ⟨name, type, rfl, rfl⟩ | ⟨target, name, type, rfl, rfl⟩ :=
          Expr.retyped?_cases carries.retyped <;> rw [bodyCalls_sites, bodyCalls_sites] <;> rfl
      have split (receiver : Expr) (name : String) (arguments : List Expr)
          (method : Option ResolvedMethod) : refers.bodyCalls
            ((Expr.methodCall (some receiver) name arguments method).parts place) =
          refers.bodyCalls (receiver.sites place.receiver) := by
        change refers.bodyCalls (_ ++ _) = _
        rw [bodyCalls_append, bodyCalls_outside refers rfl, List.append_nil]
      rw [same, bodyCalls_sites, bodyCalls_sites, split, split, through, Expr.headThrough?,
        Expr.headThrough?, old, new]
      rfl

/-- Which method is called can be seen from what the receiver was before a visit. -/
theorem signature?_of_kept {select visited : Expr} (kept : Kept select visited) {name : String}
    {others : List Expr} {method : Option ResolvedMethod} {signature : Signature}
    (called : (Expr.methodCall (some visited) name others method).signature? = some signature)
    (arguments : List Expr) :
    (Expr.methodCall (some select) name arguments method).signature? = some signature := by
  obtain same | ⟨-, kind, known⟩ := kept.alike.staticType
  · rw [← signature?_congr same name arguments others]
    exact called
  · -- A receiver of a primitive type has no ancestors, so the method is found in its own class.
    rw [Expr.staticType_bare] at known
    cases method with
    | none => cases called
    | some method =>
      simp only [Expr.signature?, resolveSignature?] at called ⊢
      cases found : Signature.find? method.declaringType name with
      | some signature =>
        rw [found] at called
        exact called
      | none => simp [found, known, JavaType.classType?] at called

/-- A use of a logger was one before its parts were visited. -/
theorem usesLogger_of_rebuilt {onBlock : Nat → List Statement → List Statement → Prop} {count : Nat}
    {before rebuilt : Expr} (parts : Pass.Rebuilt (fun _ => Kept) onBlock count before rebuilt)
    (uses : rebuilt.usesLogger = true) : before.usesLogger = true := by
  cases parts with
  | methodCall name method visited arguments =>
    cases visited with
    | none => cases method <;> exact uses
    | some kept =>
      obtain ⟨signature, called, use⟩ := Option.any_eq_true _ _ |>.mp uses
      rw [Expr.usesLogger, signature?_of_kept kept called]
      exact use
  | _ => cases uses

theorem isLoud_factoryCall (target : Framework) (key : LoggerKey) (owner : String) :
    (target.factoryCall key owner).isLoud = false := by
  have plain : (target.factoryCall key owner).isThrowable = false := by
    change (JavaType.named target.loggerType).isThrowable = false
    cases target <;> rfl
  rw [Expr.isLoud, plain, Bool.and_false]

theorem isLoud_classNameCall (expr : Expr) : expr.classNameCall.isLoud = false := Bool.and_false _

/-- A pass makes no loud calls. -/
theorem marks_loud : Marks settings scope fields fun _ => Expr.isLoud where
  call {expr} loud := by
    cases expr with
    | methodCall => rfl
    | _ => cases loud
  rebuilt parts loud := by
    rw [Expr.isLoud, Bool.and_eq_true] at loud ⊢
    obtain ⟨uses, throwable⟩ := loud
    refine ⟨usesLogger_of_rebuilt parts uses, ?_⟩
    cases parts with
    | methodCall => exact throwable
    | _ => cases uses
  carried _ _ carries := by
    obtain ⟨kind, known⟩ := carries.primitive
    rw [Expr.isLoud, Expr.isThrowable, Expr.hasType, Expr.staticType, Option.bind_some, known]
    cases kind <;> exact Bool.and_false _
  factory := isLoud_factoryCall settings.target
  className := isLoud_classNameCall

/-! ## Calls that move -/

section Moves

variable {refers : Reference}

/-- A variable is used as a logger of the target framework just as well where it is a receiver. -/
theorem moved_of_place (place other : Place) (same : place.fields = other.fields)
    (receives : place.isReceiver = true → other.isReceiver = true) {expr : Expr}
    (each : ∀ site ∈ expr.sites place, refers.Moved settings.target site) :
    ∀ site ∈ expr.sites other, refers.Moved settings.target site := by
  -- Only the place of the whole can be one of a receiver; the parts stand where they stand.
  have steady : Place.Steady fun place other : Place => place.fields = other.fields ∧
      (place.isReceiver = true → other.isReceiver = true) :=
    ⟨fun both => ⟨both.1, id⟩, fun both => ⟨both.1, id⟩, id, id, fun _ => id⟩
  intro site member
  obtain ⟨old, found, same, fields, receives⟩ :=
    exists_of_forall₂ (expr.forall₂_sites steady ⟨same, receives⟩) member
  exact (each old found).congr same fields receives

/-- An expression that is no call and no reference is no use of a variable. -/
theorem moved_of_isPure_eq_false (lawful : refers.Lawful settings.target)
    (other : site.expr.isCall = false) (busy : site.expr.isPure = false) :
    refers.Moved settings.target site := by
  refine ⟨fun through => ?_, fun head found => ?_⟩
  · rw [lawful.pure through] at busy
    cases busy
  · obtain ⟨arguments, same, -⟩ := Expr.headThrough?_eq_some found
    rw [same] at other
    cases other

/-- What is put together from moved uses has no others. -/
theorem distributes_moved (lawful : refers.Lawful settings.target) (place : Place)
    (plain : place.isReceiver = false) :
    Expr.Distributes fun expr =>
      ∀ site ∈ expr.sites place, refers.Moved settings.target site := by
  refine Expr.distributes_sites ?_ ?_ (fun value => ⟨fun through => ?_, nofun⟩) (fun {expr} top => ?_)
    (fun _ _ => moved_of_isPure_eq_false lawful rfl rfl)
    fun _ => moved_of_isPure_eq_false lawful rfl rfl
  · exact ⟨moved_of_place place.inner place rfl nofun,
      moved_of_place place place.inner rfl fun receives => by rw [plain] at receives; cases receives⟩
  · exact ⟨moved_of_place place.bare place rfl id, moved_of_place place place.bare rfl id⟩
  · rw [lawful.literal] at through
    cases through
  · refine ⟨fun through => top.isReceiver ?_, nofun⟩
    rw [← lawful.parens]
    exact through

/-- The logger that a use is carried over with has the parts that it had. -/
theorem forall_receiver_of_retyped? {expr receiver : Expr} {type : JavaType} {holds : Site → Prop}
    {place : Place} (retyped : expr.retyped? type = some receiver) (top : holds ⟨place, receiver⟩)
    (parts : ∀ site ∈ expr.sites place, holds site) : ∀ site ∈ receiver.sites place, holds site := by
  obtain ⟨_, _, rfl, rfl⟩ | ⟨target, _, _, rfl, rfl⟩ := Expr.retyped?_cases retyped
  · exact List.forall_mem_singleton.mpr top
  · exact List.forall_mem_cons.mpr ⟨top, (List.forall_mem_cons.mp parts).2⟩

/-- What is true of the parts of a use of a logger is true of the parts of the call that is written for
it. -/
theorem CarriesOver.forall_parts {select receiver : Expr} {name newName : String}
    {arguments others : List Expr}
    {method written : ResolvedMethod} {holds : Site → Prop} {place : Place}
    (carries : settings.CarriesOver select name arguments method receiver newName others written)
    (distributes : Expr.Distributes fun expr => ∀ site ∈ expr.sites place.argument, holds site)
    (onLevel : ∀ levelType, settings.target.levelType? = some levelType → ∀ constant,
      ∀ site ∈ (Expr.constant levelType constant).sites place.argument, holds site)
    (onReceiver : holds ⟨place.receiver, receiver⟩)
    (parts : ∀ site ∈ (Expr.methodCall (some select) name arguments (some method)).parts place,
      holds site) :
    ∀ site ∈ (Expr.methodCall (some receiver) newName others (some written)).parts place,
      holds site := by
  obtain ⟨onSelect, onArguments⟩ := List.forall_mem_append.mp parts
  refine List.forall_mem_append.mpr
    ⟨forall_receiver_of_retyped? carries.retyped onReceiver onSelect, ?_⟩
  rw [Expr.sitesList_eq_flatMap, List.forall_mem_flatMap]
  exact carries.holds distributes onLevel fun expr member site inside =>
    onArguments site (Expr.mem_sitesList member inside)

/-- A variable stands for a field of the target framework. -/
def Settles (settings : Migrate) (scope : Scope) (fields : List String) (refers : Reference) : Prop :=
  ∀ expr, refers fields expr = true → ∃ field, scope.fieldFor? expr = some field ∧
    field.type.typeName = settings.target.loggerType

/-- A call through a variable that can be carried over is replaced, since it still can when its
arguments have been visited. -/
theorem exists_replace?_of_rebuilt (lawful : refers.Lawful settings.target)
    (settles : settings.Settles scope fields refers) {place : Place} {count : Nat}
    {before rebuilt : Expr}
    (parts : Pass.Rebuilt (fun _ => Kept) (fun _ _ _ => True) count before rebuilt)
    (quiet : ∀ site ∈ before.parts place, site.expr.isLoud = false)
    (planned : (settings.plan? before).isSome = true)
    (found : rebuilt.headThrough? (refers fields) = some head) :
    ∃ replacement, settings.replace? rebuilt scope = some replacement := by
  obtain ⟨arguments, rfl, through, -⟩ := Expr.headThrough?_eq_some found
  cases parts with
  | methodCall name method visited others =>
    cases visited with
    | some kept =>
      -- The receiver is a reference and stays as it is.
      obtain rfl := refers_of_kept lawful kept through
      obtain ⟨field, found, moved⟩ := settles _ through
      refine exists_replace? (isSome_plan?_of_alike primitive_serves (alikeList_of_kept others)
        (fun expr member call serves => ?_) planned) found moved
      -- What gives way to another call is a use of a logger, and not loud.
      obtain ⟨site, inside, same⟩ := expr.exists_site_bare place.argument
      have silent := quiet site
        (List.mem_append_right _ (Expr.mem_sitesList member inside))
      rw [same, Expr.isLoud, serves.1, Bool.true_and, Expr.isThrowable, Expr.hasType,
        Expr.staticType_bare] at silent
      exact silent

/-- **Calls move with their field.** If a variable stands for a field of the target framework and
every use of it can be carried over, a pass carries over all of them. -/
theorem siteLaw_of_settles (lawful : refers.Lawful settings.target)
    (settles : settings.Settles scope fields refers) :
    SiteLaw settings scope fields fun before after =>
      (∀ site ∈ before, refers.Ready settings 0 site) →
        ∀ site ∈ after, refers.Moved settings.target site where
  nil _ := nofun
  append first second each := by
    obtain ⟨front, back⟩ := List.forall_mem_append.mp each
    exact List.forall_mem_append.mpr ⟨first front, second back⟩
  deep place expr far each := by
    intro site member
    have ready := each site member
    refine ⟨ready.isReceiver, fun head found => absurd (ready.near ?_) ?_⟩
    · -- A use that can be carried over is not too deep.
      obtain ⟨_, same, -⟩ := Expr.headThrough?_eq_some found
      rw [same]
      rfl
    · exact Nat.not_lt.mpr (Nat.le_trans far (Expr.le_level member))
  node {place count before rebuilt} here parts inner each := by
    rw [Expr.sites_eq_cons, List.forall_mem_cons] at each
    obtain ⟨movable, each⟩ := each
    replace parts := parts.kept
    have moved := inner each
    have quiet : ∀ site ∈ before.parts place, site.expr.isLoud = false := fun site member =>
      (each site member).quiet
    subst here
    -- The call is left, so it was no use of the variable or has moved before; or it is carried over.
    obtain ⟨declined, same⟩ | ⟨select, name, arguments, method, receiver, newName, others, written, field,
      rfl, same, -, -, carries⟩ := settings.carry_cases scope rebuilt
    · rw [same, Expr.sites_eq_cons]
      refine List.forall_mem_cons.mpr ⟨⟨fun through => ?_, fun head found => ?_⟩, moved⟩
      · rw [refers_of_kept lawful (kept_of_rebuilt parts) through] at through
        exact movable.isReceiver through
      · obtain moved | planned := movable.planned head
            ((headThrough?_of_rebuilt lawful parts).symm.trans found)
        · exact moved
        · obtain ⟨replacement, replaced⟩ :=
            exists_replace?_of_rebuilt lawful settles parts quiet planned found
          rw [declined] at replaced
          cases replaced
    · rw [same, Expr.sites_eq_cons, List.forall_mem_cons]
      refine ⟨⟨fun through => ?_, fun head found => ?_⟩, carries.forall_parts
        (distributes_moved lawful place.argument rfl) (fun levelType known constant => ?_)
        ⟨fun _ => rfl, fun head found => ?_⟩ moved⟩
      · cases lawful.pure through
      · obtain ⟨arguments, whole, -⟩ := Expr.headThrough?_eq_some found
        -- The new call is one of the target framework.
        injection whole with _ _ _ same
        exact ⟨written, same.symm, carries.declaringType⟩
      · refine List.forall_mem_cons.mpr ⟨⟨fun through => ?_, nofun⟩,
          List.forall_mem_singleton.mpr ⟨fun through => ?_, nofun⟩⟩
        · cases (lawful.constant known).symm.trans through
        · cases lawful.typeRef.symm.trans through
      · obtain ⟨_, _, -, rfl⟩ | ⟨_, _, _, -, rfl⟩ := Expr.retyped?_cases carries.retyped <;> cases found

end Moves

end Migrate

end LogCalls
