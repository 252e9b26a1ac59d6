import LogCalls.Proofs.Migration.Classes

/-! # Calls that are lost

When a use of a logger is carried over, the level that it is given is written anew, and when a logger
field moves, so is the call that asks for the logger. Whatever stands in the old level, or in front of
the old call, is dropped, also if it is a call through a field that does not move. No other calls are
lost: a pass keeps account of them. -/

namespace LogCalls

/-- What a logger is asked for through, if the expression is a call that asks for one. -/
def Expr.askedThrough : Expr → List Expr
  | .methodCall select name arguments method =>
    if (Expr.methodCall select name arguments method).signature?.any (·.shape == .factory) then
      select.toList
    else []
  | _ => []

/-- What may be dropped when the expression at the site is carried over: the level that a call is given
and, in the initializer of a field, the call that asks for a logger with what it asks through. -/
def Site.dropped (site : Site) : List Site :=
  Expr.sitesList site.argument site.expr.levelArguments ++
    if site.isInitial then site.expr.askedThrough.flatMap (site :: ·.sites site.receiver) else []

namespace Reference

/-- The calls through the variable that may be dropped. -/
def losses (refers : Reference) (sites : List Site) : List CallHead :=
  refers.calls (sites.flatMap Site.dropped)

variable {refers : Reference} {head : CallHead} {place : Place}

/-- The calls of one kind are accounted for: none is new, and as many are gone at most as may be
dropped. -/
structure Accounts (refers : Reference) (head : CallHead) (before after : List Site) : Prop where
  fewer : (refers.calls after).count head ≤ (refers.calls before).count head
  /-- What may still be dropped is taken into account, so that one pass can follow another. -/
  kept : (refers.calls before).count head + (refers.losses after).count head ≤
    (refers.calls after).count head + (refers.losses before).count head

namespace Accounts

theorem refl (sites : List Site) : refers.Accounts head sites sites :=
  ⟨Nat.le_refl _, Nat.le_refl _⟩

/-- Accounts of one pass after the other are put together. -/
theorem trans {before middle after : List Site} (first : refers.Accounts head before middle)
    (second : refers.Accounts head middle after) : refers.Accounts head before after := by
  have := first.kept
  have := second.kept
  exact ⟨Nat.le_trans second.fewer first.fewer, by omega⟩

/-- So are accounts of one part after the other. -/
theorem append {front others back more : List Site} (first : refers.Accounts head front others)
    (second : refers.Accounts head back more) :
    refers.Accounts head (front ++ back) (others ++ more) := by
  have := first.fewer
  have := first.kept
  have := second.fewer
  have := second.kept
  constructor <;>
    simp only [losses, calls, List.flatMap_append, List.filterMap_append, List.count_append] at * <;>
    omega

/-- Calls that may not be dropped are made as often as before. -/
theorem count_eq {before after : List Site} (accounts : refers.Accounts head before after)
    (stays : head ∉ refers.losses before) :
    (refers.calls after).count head = (refers.calls before).count head := by
  have kept := accounts.kept
  rw [List.count_eq_zero_of_not_mem stays] at kept
  exact Nat.le_antisymm accounts.fewer (by omega)

end Accounts

/-! ## Calls in expressions -/

section Counts

variable (refers : Reference) (head : CallHead) (place : Place)

/-- How often the call is made in the expression. -/
def tally (fields : List String) (expr : Expr) : Nat :=
  (refers.calls (expr.sites { fields })).count head

/-- It does not matter where the expression stands. -/
theorem count_sites (expr : Expr) :
    (refers.calls (expr.sites place)).count head = refers.tally head place.fields expr := by
  rw [tally, count_calls, count_calls]
  exact expr.countP_sites (fun fields expr => expr.headThrough? (refers fields) == some head)
    (show place.fields = ({ fields := place.fields } : Place).fields from rfl)

/-- The calls in expressions are those in each. -/
theorem count_sitesList (exprs : List Expr) :
    (refers.calls (Expr.sitesList place exprs)).count head =
      total (refers.tally head place.fields) exprs := by
  rw [count_calls, Expr.countP_sitesList]
  refine congrArg (total · exprs) (funext fun expr => ?_)
  rw [← count_calls, count_sites]

/-- The calls in an expression add up. -/
theorem valuation_tally (fields : List String) : Valuation (refers.tally head fields) 0 := by
  have valuation := Expr.valuation_sites
    (fun fields expr => if expr.headThrough? (refers fields) == some head then 1 else 0) { fields }
    fun expr other => by cases expr <;> first | rfl | cases other
  have same : refers.tally head fields = fun expr =>
      total (fun site => if site.expr.headThrough? (refers site.fields) == some head then 1 else 0)
        (expr.sites { fields }) :=
    funext fun expr => by rw [tally, count_calls, countP_eq_total]
  exact same ▸ valuation

/-- How often the call is made in the level that the expression is given. -/
def toll (fields : List String) (expr : Expr) : Nat :=
  total (refers.tally head fields) expr.levelArguments

/-- How often the call is made in the levels that are given in the expression. -/
def tolls (fields : List String) (expr : Expr) : Nat :=
  total (fun site => refers.toll head site.fields site.expr) (expr.sites { fields })

/-- How often the call is made by asking for a logger, and in what is asked through. -/
def fee (fields : List String) (expr : Expr) : Nat :=
  total (fun select => (if expr.headThrough? (refers fields) == some head then 1 else 0) +
    refers.tally head fields select) expr.askedThrough

/-- The calls in levels add up. -/
theorem valuation_tolls (fields : List String) : Valuation (refers.tolls head fields) 0 :=
  Expr.valuation_sites (refers.toll head) { fields } fun expr other => by
    cases expr <;> first | rfl | cases other

/-! ## Losses in expressions -/

/-- What may be dropped is in a level or, in an initializer, in what a logger is asked through. -/
theorem count_dropped (site : Site) : (refers.calls site.dropped).count head =
    refers.toll head site.fields site.expr +
      if site.isInitial then refers.fee head site.fields site.expr else 0 := by
  have asked (selects : List Expr) :
      (refers.calls (selects.flatMap (site :: ·.sites site.receiver))).count head =
        total (fun select => (if site.expr.headThrough? (refers site.fields) == some head then 1 else 0) +
          refers.tally head site.fields select) selects := by
    induction selects with
    | nil => rfl
    | cons select rest ih =>
      have inside := refers.count_sites head site.receiver select
      rw [count_calls] at ih inside ⊢
      rw [List.flatMap_cons, List.countP_append, ih, List.countP_cons, inside, total_cons]
      change _ + _ + _ = _ + refers.tally head site.receiver.fields select + _
      omega
  rw [Site.dropped, calls, List.filterMap_append, List.count_append]
  refine congrArg₂ (· + ·) (refers.count_sitesList head site.argument _) ?_
  split
  · exact asked _
  · rfl

/-- The losses are those at each site. -/
theorem count_losses (sites : List Site) : (refers.losses sites).count head =
    total (fun site => (refers.calls site.dropped).count head) sites := by
  induction sites with
  | nil => rfl
  | cons site rest ih =>
    rw [total_cons, ← ih, losses, losses, calls, calls, calls, List.flatMap_cons,
      List.filterMap_append, List.count_append]

variable {place} (plain : place.isInitial = false)

include plain

/-- Inside an expression that is no initializer the losses are in levels. -/
theorem count_losses_sites (expr : Expr) :
    (refers.losses (expr.sites place)).count head = refers.tolls head place.fields expr := by
  have steady : Place.Steady fun _ other => other.isInitial = false :=
    ⟨fun _ => rfl, fun _ => rfl, fun _ => rfl, id, fun _ => id⟩
  have each : ∀ site ∈ expr.sites place, (refers.calls site.dropped).count head =
      refers.toll head site.fields site.expr := fun site member => by
    rw [count_dropped, expr.forall_sites steady plain site member]
    rfl
  rw [count_losses, total, List.map_congr_left each]
  exact expr.total_sites (refers.toll head)
    (show place.fields = ({ fields := place.fields } : Place).fields from rfl)

/-- The losses in expressions are those in each. -/
theorem count_losses_sitesList (exprs : List Expr) :
    (refers.losses (Expr.sitesList place exprs)).count head =
      total (refers.tolls head place.fields) exprs := by
  induction exprs with
  | nil => rfl
  | cons expr rest ih =>
    have first := refers.count_losses_sites head plain expr
    rw [count_losses] at ih first ⊢
    rw [Expr.sitesList, total_append, ih, first, total_cons]

omit plain

/-- What the parts of a call hold, and what may be lost there. -/
theorem count_parts (place : Place) (select : Option Expr) (name : String) (arguments : List Expr)
    (method : Option ResolvedMethod) :
    (refers.calls ((Expr.methodCall select name arguments method).parts place)).count head =
        total (refers.tally head place.fields) select.toList +
          total (refers.tally head place.fields) arguments ∧
      (refers.losses ((Expr.methodCall select name arguments method).parts place)).count head =
        total (refers.tolls head place.fields) select.toList +
          total (refers.tolls head place.fields) arguments := by
  have onArguments := refers.count_sitesList head place.argument arguments
  have lostArguments := refers.count_losses_sitesList head
    (show place.argument.isInitial = false from rfl) arguments
  cases select with
  | none => exact ⟨onArguments.trans (Nat.zero_add _).symm, lostArguments.trans (Nat.zero_add _).symm⟩
  | some select =>
    have onSelect := refers.count_sites head place.receiver select
    have lostSelect := refers.count_losses_sites head
      (show place.receiver.isInitial = false from rfl) select
    have split : (Expr.methodCall (some select) name arguments method).parts place =
        select.sites place.receiver ++ Expr.sitesList place.argument arguments := rfl
    rw [split]
    simp only [losses, calls, List.flatMap_append, List.filterMap_append, List.count_append] at *
    exact ⟨congrArg₂ (· + ·) onSelect onArguments, congrArg₂ (· + ·) lostSelect lostArguments⟩

/-- The whole of an expression holds its own call and those in its parts. -/
theorem count_whole (place : Place) (expr : Expr) :
    (refers.calls (expr.sites place)).count head =
        (if expr.headThrough? (refers place.fields) == some head then 1 else 0) +
          (refers.calls (expr.parts place)).count head ∧
      (refers.losses (expr.sites place)).count head =
        (refers.toll head place.fields expr +
          if place.isInitial then refers.fee head place.fields expr else 0) +
          (refers.losses (expr.parts place)).count head := by
  rw [Expr.sites_eq_cons]
  constructor
  · rw [count_calls, count_calls, List.countP_cons, Nat.add_comm]
  · rw [count_losses, count_losses, total_cons, count_dropped]

/-- The calls in a call are the call itself and those in its parts. -/
theorem tally_call (fields : List String) (select : Option Expr) (name : String)
    (arguments : List Expr) (method : Option ResolvedMethod) :
    refers.tally head fields (.methodCall select name arguments method) =
      (if (Expr.methodCall select name arguments method).headThrough? (refers fields) == some head
        then 1 else 0) +
        (total (refers.tally head fields) select.toList + total (refers.tally head fields) arguments) := by
  rw [tally, (refers.count_whole head { fields } _).1, (refers.count_parts head { fields } ..).1]

/-- The calls in the levels in a call are those in its own level and in its parts. -/
theorem tolls_call (fields : List String) (select : Option Expr) (name : String)
    (arguments : List Expr) (method : Option ResolvedMethod) :
    refers.tolls head fields (.methodCall select name arguments method) =
      refers.toll head fields (.methodCall select name arguments method) +
        (total (refers.tolls head fields) select.toList +
          total (refers.tolls head fields) arguments) := by
  have whole := (refers.count_whole head { fields } (.methodCall select name arguments method)).2
  rw [refers.count_losses_sites head rfl, (refers.count_parts head { fields } ..).2] at whole
  exact whole

end Counts

end Reference

/-! ## Visits -/

namespace Migrate

variable {settings : Migrate} {scope : Scope} {fields : List String} {refers : Reference}
  {head : CallHead}

/-- A call is made at most as often in a part that has been visited. -/
theorem tally_le_of_follows {level : Nat} {before after : Expr}
    (follows : Pass.FollowsPart Kept (refers.Accounts head) fields level before after) :
    refers.tally head fields after ≤ refers.tally head fields before := by
  have fewer := (follows.2 { level, fields } rfl rfl).fewer
  rwa [Reference.count_sites, Reference.count_sites] at fewer

/-- Visits of the parts of an expression add nothing to what may be dropped of it. -/
theorem dropped_le_of_rebuilt (lawful : refers.Lawful settings.target) {level count : Nat}
    {before after : Expr}
    (parts : Pass.Rebuilt (fun _ => Pass.FollowsPart Kept (refers.Accounts head) fields level)
      (fun _ _ _ => True) count before after) :
    refers.toll head fields after ≤ refers.toll head fields before ∧
      refers.fee head fields after ≤ refers.fee head fields before := by
  have same : after.headThrough? (refers fields) = before.headThrough? (refers fields) :=
    headThrough?_of_rebuilt lawful parts.kept
  cases parts with
  | @methodCall _ _ select visited arguments others name method onSelect onArguments =>
    -- The method is the one that was called before.
    have called (test : Signature → Bool)
        (passes : (Expr.methodCall visited name others method).signature?.any test = true) :
        (Expr.methodCall select name arguments method).signature?.any test = true := by
      cases onSelect with
      | none => cases method <;> exact passes
      | some follows =>
        obtain ⟨signature, called, holds⟩ := (Option.any_eq_true _ _).mp passes
        rw [signature?_of_kept follows.1 called]
        exact holds
    have first : total (refers.tally head fields) (others.take 1) ≤
        total (refers.tally head fields) (arguments.take 1) := by
      cases onArguments with
      | nil => exact Nat.le_refl _
      | cons follows _ => exact Nat.add_le_add_right (tally_le_of_follows follows) 0
    constructor
    · rw [Reference.toll, Reference.toll, Expr.levelArguments, Expr.levelArguments]
      by_cases levels : (Expr.methodCall visited name others method).signature?.any
          (·.shape.takesLevel) = true
      · rw [if_pos levels, if_pos (called _ levels)]
        exact first
      · rw [if_neg levels]
        exact Nat.zero_le _
    · rw [Reference.fee, Reference.fee, Expr.askedThrough, Expr.askedThrough, same]
      by_cases asks : (Expr.methodCall visited name others method).signature?.any
          (·.shape == .factory) = true
      · rw [if_pos asks, if_pos (called _ asks)]
        cases onSelect with
        | none => exact Nat.le_refl _
        | some follows =>
          exact Nat.add_le_add_right (Nat.add_le_add_left (tally_le_of_follows follows) _) 0
      · rw [if_neg asks]
        exact Nat.zero_le _
  | _ => exact ⟨Nat.le_refl _, Nat.le_refl _⟩

/-- A request for the message of an exception is no call through a variable that is none. -/
theorem collapsible_tally {collapse : Bool}
    (plain : collapse = true → head.receiver.isThrowable = false) :
    Collapsible (refers.tally head fields) collapse := by
  intro collapses expr error asks thrown
  obtain ⟨name, method, bare, -⟩ := Expr.accessedError?_eq_some asks
  have other : ¬ ((Expr.methodCall (some error) name [] method).headThrough? (refers fields) ==
      some head) = true := by
    intro found
    obtain ⟨_, same, -⟩ := Expr.headThrough?_eq_some (beq_iff_eq.mp found)
    cases same
    exact Bool.noConfusion (thrown.symm.trans (plain collapses))
  rw [← (refers.valuation_tally head fields).bare expr, bare, Reference.tally_call, if_neg other,
    Nat.zero_add]
  exact Nat.le_refl _

/-- Nothing may be dropped of a call that is written for a use of a logger. -/
theorem CarriesOver.undropped {select receiver : Expr} {name newName : String}
    {arguments others : List Expr} {method written : ResolvedMethod}
    (carries : settings.CarriesOver select name arguments method receiver newName others written)
    (refers : Reference) (head : CallHead) (fields : List String) :
    refers.toll head fields (.methodCall (some receiver) newName others (some written)) = 0 ∧
      refers.fee head fields (.methodCall (some receiver) newName others (some written)) = 0 := by
  obtain ⟨shape, known, notFactory, constant⟩ := carries.resolves
  have valuation := refers.valuation_tally head fields
  have called : (Expr.methodCall (some receiver) newName others (some written)).signature? =
      some ⟨some settings.target, shape⟩ := by
    rw [Expr.signature?, resolveSignature?, carries.declaringType, known]
  constructor
  · rw [Reference.toll, Expr.levelArguments, called, total_eq_zero_iff]
    split
    · rename_i levels
      intro level member
      obtain ⟨levelType, constant, rfl⟩ := constant levels level member
      rw [Expr.constant, valuation.fieldAccess, valuation.typeRef]
    · exact List.forall_mem_nil _
  · have asksNothing : (Expr.methodCall (some receiver) newName others (some written)).askedThrough =
        [] := by
      rw [Expr.askedThrough, called, if_neg]
      simpa using notFactory
    rw [Reference.fee, asksNothing, total_nil]

/-- **Calls are accounted for.** If a variable stands for no field of the target framework, a pass loses
no calls through it, but for those that may be dropped and, where requests for the message of an
exception are collapsed, calls through an exception. -/
theorem siteLaw_of_losses (lawful : refers.Lawful settings.target)
    (unsettled : settings.Unsettled scope fields refers)
    (plain : settings.recognize.collapseAccessors = true → head.receiver.isThrowable = false) :
    SiteLaw settings scope fields (refers.Accounts head) where
  nil := .refl []
  append := .append
  deep _ _ _ := .refl _
  node {place count before rebuilt} here parts inner := by
    subst here
    obtain ⟨lessToll, lessFee⟩ := dropped_le_of_rebuilt lawful parts
    have lessAsked : (if place.isInitial then refers.fee head place.fields rebuilt else 0) ≤
        if place.isInitial then refers.fee head place.fields before else 0 := by
      split
      · exact lessFee
      · exact Nat.le_refl _
    have through : rebuilt.headThrough? (refers place.fields) =
        before.headThrough? (refers place.fields) := headThrough?_of_rebuilt lawful parts.kept
    obtain ⟨callsBefore, lostBefore⟩ := refers.count_whole head place before
    rw [← through] at callsBefore
    have fewer := inner.fewer
    have kept := inner.kept
    obtain ⟨-, same⟩ | ⟨select, name, arguments, method, receiver, newName, others, written, field,
      rfl, same, found, moved, carries⟩ := settings.carry_cases scope rebuilt
    · obtain ⟨callsAfter, lostAfter⟩ := refers.count_whole head place rebuilt
      rw [same]
      exact ⟨by omega, by omega⟩
    · obtain ⟨old, new⟩ := unsettled.refers_eq_false lawful found moved carries.retyped
      have headless {expr : Expr} (other : refers place.fields expr = false) (name : String)
          (arguments : List Expr) (method : Option ResolvedMethod) :
          (if (Expr.methodCall (some expr) name arguments method).headThrough? (refers place.fields) ==
            some head then 1 else 0) = 0 := by
        rw [Expr.headThrough?, other]
        rfl
      rw [headless old] at callsBefore
      obtain ⟨callsAfter, lostAfter⟩ := refers.count_whole head place
        (.methodCall (some receiver) newName others (some written))
      obtain ⟨noToll, noFee⟩ := carries.undropped refers head place.fields
      rw [headless new] at callsAfter
      rw [noToll, noFee, ite_self] at lostAfter
      -- The logger is the same, and the arguments hold as much as before, but for the level.
      have tally := refers.valuation_tally head place.fields
      have tolls := refers.valuation_tolls head place.fields
      have atMost := carries.total_le tally
      have atLeast := carries.le_total tally (collapsible_tally plain)
      have lost := carries.total_le tolls
      obtain ⟨callsOld, lostOld⟩ :=
        refers.count_parts head place (some select) name arguments (some method)
      obtain ⟨callsNew, lostNew⟩ :=
        refers.count_parts head place (some receiver) newName others (some written)
      simp only [Option.toList_some, total_cons, total_nil] at callsOld lostOld callsNew lostNew
      have sameTally := retyped?_valuation tally carries.retyped
      have sameTolls := retyped?_valuation tolls carries.retyped
      change total _ arguments ≤ _ + refers.toll head place.fields _ at atLeast
      rw [same]
      exact ⟨by omega, by omega⟩

/-! ## Initializers that are written anew -/

/-- A class literal and a call that asks one for its name are made without the variable. -/
theorem tally_eq_zero_of_namesClass (lawful : refers.Lawful settings.target) {argument : Expr}
    (names : argument.NamesClass) : refers.tally head fields argument = 0 := by
  have valuation := refers.valuation_tally head fields
  obtain ⟨fqn, bare | ⟨select, name, method, bare, inner⟩⟩ := names
  · rw [← valuation.bare, bare, valuation.classLiteral]
  · have other : refers fields select = false := by
      rw [← lawful.bare, inner, lawful.classLiteral]
    rw [← valuation.bare, bare, Reference.tally_call, Expr.headThrough?, other, Option.toList_some,
      total_cons, ← valuation.bare select, inner, valuation.classLiteral]
    rfl

/-- No calls are lost among the arguments by which a logger is asked for. -/
theorem accounts_of_factoryArguments (lawful : refers.Lawful settings.target)
    {arguments : List Expr} {key : LoggerKey} (found : LoggerKey.ofArguments? arguments = some key)
    (owner : String) (head : CallHead) (fields : List String) :
    total (refers.tally head fields) arguments ≤
        total (refers.tally head fields) (key.factoryArguments settings.target owner) ∧
      total (refers.tolls head fields) (key.factoryArguments settings.target owner) ≤
        total (refers.tolls head fields) arguments := by
  have tolls := refers.valuation_tolls head fields
  -- A class object that is asked for its name is given no level.
  have named (expr : Expr) : refers.tolls head fields expr.classNameCall =
      refers.tolls head fields expr := by
    rw [Expr.classNameCall, Expr.call, Reference.tolls_call, Reference.toll, Expr.levelArguments]
    simp
  obtain ⟨names, written⟩ | ⟨argument, rfl, -, same | ⟨-, same⟩⟩ :=
    LoggerKey.factoryArguments_cases found settings.target owner
  · have nothing : total (refers.tally head fields) arguments = 0 := by
      rw [total_eq_zero_iff]
      exact fun argument member => tally_eq_zero_of_namesClass lawful (names argument member)
    refine ⟨by omega, ?_⟩
    obtain written | ⟨fqn, written | ⟨-, written⟩⟩ := written
    · rw [written]
      exact Nat.zero_le _
    · rw [written, total_cons, total_nil, tolls.classLiteral]
      exact Nat.zero_le _
    · rw [written, total_cons, total_nil, named, tolls.classLiteral]
      exact Nat.zero_le _
  · rw [same]
    exact ⟨Nat.le_refl _, Nat.le_refl _⟩
  · rw [same]
    simp only [total_cons, total_nil, named]
    refine ⟨?_, Nat.le_refl _⟩
    rw [Expr.classNameCall, Expr.call, Reference.tally_call]
    simp only [Option.toList_some, total_cons, total_nil]
    omega

/-- A logger is asked for by a static call. -/
theorem factoryCall_eq (target : Framework) (key : LoggerKey) (owner : String) :
    target.factoryCall key owner = .methodCall (some (.typeRef target.factoryType))
      target.factoryMethod (key.factoryArguments target owner)
      (some (.onClassReturning target.factoryType target.factoryMethod
        (.named target.loggerType))) := rfl

/-- It is known there as such a call. -/
theorem signature?_factoryCall (target : Framework) (key : LoggerKey) (owner : String) :
    (target.factoryCall key owner).signature? = some ⟨some target, .factory⟩ := by
  rw [factoryCall_eq, Expr.signature?, resolveSignature?]
  cases target <;> rfl

/-- Nothing that is made through the variable may be dropped of such a call. -/
theorem undropped_factoryCall (lawful : refers.Lawful settings.target) (key : LoggerKey)
    (owner : String) (head : CallHead) (fields : List String) :
    (settings.target.factoryCall key owner).headThrough? (refers fields) = none ∧
      refers.toll head fields (settings.target.factoryCall key owner) = 0 ∧
      refers.fee head fields (settings.target.factoryCall key owner) = 0 := by
  have valuation := refers.valuation_tally head fields
  have headless : (settings.target.factoryCall key owner).headThrough? (refers fields) = none := by
    rw [factoryCall_eq, Expr.headThrough?, lawful.typeRef]
    rfl
  have called := signature?_factoryCall settings.target key owner
  refine ⟨headless, ?_, ?_⟩
  · rw [factoryCall_eq] at called ⊢
    rw [Reference.toll, Expr.levelArguments, called]
    rfl
  · rw [Reference.fee, headless]
    rw [factoryCall_eq] at called ⊢
    rw [Expr.askedThrough, called]
    exact (Nat.zero_add _).trans (valuation.typeRef settings.target.factoryType)

/-- No calls are lost when a logger is asked for anew, but for those that it was asked through. -/
theorem accounts_factoryCall (lawful : refers.Lawful settings.target)
    (unsettled : settings.Unsettled scope fields refers) (logs : head.isOnClass = false)
    {initial : Expr} {factory : FactoryCall}
    (recognized : FactoryCall.recognize? initial = some factory) (owner : String) {place : Place}
    (here : place.fields = fields) (whole : place.isInitial = true) :
    refers.Accounts head (initial.sites place)
      ((settings.target.factoryCall factory.key owner).sites place) where
  fewer := by
    rw [Reference.count_calls, Reference.count_calls]
    exact (marks_calls lawful unsettled logs).countP_factoryCall_le recognized owner here
  kept := by
    subst here
    obtain ⟨select, name, arguments, rfl, resolved, found⟩ := FactoryCall.recognize?_cases recognized
    obtain ⟨more, less⟩ := accounts_of_factoryArguments lawful found owner head place.fields
    obtain ⟨headless, noToll, noFee⟩ :=
      undropped_factoryCall lawful factory.key owner head place.fields
    -- What the old call asks through is all that is lost.
    have asked : (if (Expr.methodCall select name arguments (some factory.method)).headThrough?
          (refers place.fields) == some head then 1 else 0) +
        total (refers.tally head place.fields) select.toList ≤
        refers.fee head place.fields (.methodCall select name arguments (some factory.method)) := by
      rw [Reference.fee, Expr.askedThrough, Expr.signature?, resolved]
      cases select with
      | none => exact Nat.le_refl _
      | some select => exact Nat.le_refl _
    obtain ⟨callsOld, lostOld⟩ := refers.count_whole head place
      (.methodCall select name arguments (some factory.method))
    obtain ⟨callsNew, lostNew⟩ := refers.count_whole head place
      (settings.target.factoryCall factory.key owner)
    rw [(refers.count_parts head place ..).1] at callsOld
    rw [(refers.count_parts head place ..).2, whole, if_pos rfl] at lostOld
    rw [headless, factoryCall_eq, (refers.count_parts head place ..).1, Option.toList_some, total_cons,
      total_nil] at callsNew
    rw [noToll, noFee, ite_self, factoryCall_eq, (refers.count_parts head place ..).2,
      Option.toList_some, total_cons, total_nil,
      (refers.valuation_tolls head place.fields).typeRef] at lostNew
    change _ = 0 + _ at callsNew
    rw [factoryCall_eq]
    omega

/-- A pass accounts for the calls in a class. -/
theorem classLaw_of_losses (lawful : refers.Lawful settings.target) {admits : ClassDecl → Prop}
    (descends : Descends (fun scope fields => settings.Unsettled scope fields refers) admits)
    (logs : head.isOnClass = false)
    (plain : settings.recognize.collapseAccessors = true → head.receiver.isThrowable = false) :
    ClassLaw settings (fun scope fields => settings.Unsettled scope fields refers) admits
      (refers.Accounts head) (refers.Accounts head) (refers.Accounts head) where
  nil := .refl []
  append := .append
  members here := siteLaw_of_losses lawful here plain
  unoffered := .refl
  offeredAppend := .append
  field start declared field unsettled := by
    obtain same | ⟨initial, factory, initialized, recognized, -, same⟩ :=
      settings.carryField_cases start declared field
    · rw [same]
      exact .refl _
    · rw [same, FieldDecl.sites, FieldDecl.sites, initialized]
      exact accounts_factoryCall lawful unsettled logs recognized _ rfl rfl
  compose := .trans
  nested := descends

end Migrate

end LogCalls
