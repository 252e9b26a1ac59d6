import LogCalls.Proofs.Convergence.Weight
import LogCalls.Proofs.Engine.Visits

/-! # Visited parts get lighter

A node whose parts have got lighter has got lighter itself. This needs the parts to keep their form,
that is, all of an expression that the weight of a call around it depends on. -/

namespace LogCalls

namespace Expr

/-- What the weight of a call depends on in one of its parts, apart from the part's own weight. -/
structure Form where
  isText : Bool
  isHollow : Bool
  joints : Nat
  isClass : Bool
  isKey : Bool

/-- The form of an expression in a class. -/
def form (owner : String) (expr : Expr) : Form where
  isText := expr.isText
  isHollow := expr.isHollow
  joints := expr.joints
  isClass := expr.isClassOf owner
  isKey := expr.isKeyOf owner

/-- The form of most expressions. -/
def Form.plain : Form where
  isText := false
  isHollow := false
  joints := 0
  isClass := false
  isKey := false

/-- The form of a call depends on its name, on its receiver, and on whether it has arguments. -/
theorem form_methodCall (owner : String) (select : Option Expr) (name : String)
    (arguments : List Expr) (method : Option ResolvedMethod) :
    (Expr.methodCall select name arguments method).form owner =
      { Form.plain with
        isHollow := name == "toString" && arguments.isEmpty && select.any isHollow
        isKey := (name == "getName" || name == "getCanonicalName") && arguments.isEmpty &&
          select.any (isClassOf owner) } := by
  cases select with
  | none => cases arguments <;> simp [form, Form.plain, isText, isHollow, joints, isClassOf, isKeyOf,
      bare, stringLiteral?]
  | some select => cases arguments <;> simp [form, Form.plain, isText, isHollow, joints, isClassOf,
      isKeyOf, bare, stringLiteral?]

/-- Parentheses keep the form, but for an array that would be spread without them. -/
theorem form_parens (owner : String) (inner : Expr) :
    (Expr.parens inner).form owner = { inner.form owner with isHollow := false } := by
  simp [form, isText, isHollow, joints, isClassOf, isKeyOf]

section Lists

variable {owner : String} {before after : List Expr}

/-- Equal forms have texts alike. -/
theorem any_isText_eq (same : after.map (form owner) = before.map (form owner)) :
    after.any (·.isText) = before.any (·.isText) := by
  have := congrArg (·.any (·.isText)) same
  simp only [List.any_map] at this
  exact this

/-- And keys. -/
theorem any_isKeyOf_eq (same : after.map (form owner) = before.map (form owner)) :
    after.any (·.isKeyOf owner) = before.any (·.isKeyOf owner) := by
  have := congrArg (·.any (·.isKey)) same
  simp only [List.any_map] at this
  exact this

/-- Joints are counted part by part. -/
theorem jointsList_eq_sum (exprs : List Expr) : jointsList exprs = (exprs.map joints).sum := by
  induction exprs with
  | nil => rfl
  | cons expr rest ih =>
    rw [jointsList, ih, List.map_cons, List.sum_cons]

/-- Joints of two lists add up. -/
theorem jointsList_append (front back : List Expr) :
    jointsList (front ++ back) = jointsList front + jointsList back := by
  rw [jointsList_eq_sum, List.map_append, List.sum_append, ← jointsList_eq_sum, ← jointsList_eq_sum]

/-- Equal forms have as many joints. -/
theorem jointsList_eq (same : after.map (form owner) = before.map (form owner)) :
    jointsList after = jointsList before := by
  have := congrArg (fun forms => (forms.map Form.joints).sum) same
  simp only [List.map_map] at this
  rw [jointsList_eq_sum, jointsList_eq_sum]
  exact this

theorem endsHollow_eq_getLast? (exprs : List Expr) :
    endsHollow exprs = exprs.getLast?.all isHollow := by
  induction exprs with
  | nil => rfl
  | cons expr rest ih =>
    cases rest with
    | nil => rfl
    | cons second others =>
      rw [endsHollow, List.getLast?_cons_cons, ih]
      rfl

/-- Equal forms end alike. -/
theorem endsHollow_eq (same : after.map (form owner) = before.map (form owner)) :
    endsHollow after = endsHollow before := by
  have := congrArg (fun forms => forms.getLast?.all Form.isHollow) same
  simp only [List.getLast?_map, Option.all_map] at this
  rw [endsHollow_eq_getLast?, endsHollow_eq_getLast?]
  exact this

end Lists

end Expr

namespace Tariff

variable {α : Type} (tariff : Tariff)

/-- The number of hollow requests does not get in the way of the rules. -/
def Admits (count : Nat) : Prop := tariff.completes = true → tariff.spreads = true → count = 0

theorem Admits.mono {tariff : Tariff} {fewer more : Nat} (admits : tariff.Admits more)
    (le : fewer ≤ more) : tariff.Admits fewer := by
  intro completes spreads
  have := admits completes spreads
  omega

/-- The number of replacements comes off the weight, and no hollow requests come in. -/
structure Eases (hollow weight : α → Nat) (count : Nat) (before after : α) : Prop where
  sound : hollow before = 0 → hollow after = 0
  lighter : tariff.Admits (hollow before) → weight after + count ≤ weight before

/-- The expression eases and keeps its form. -/
structure Lightens (count : Nat) (before after : Expr) : Prop
    extends tariff.Eases Expr.hollowAccessors tariff.weight count before after where
  form : after.form tariff.owner = before.form tariff.owner

/-- The block eases. -/
abbrev LightensBlock (count : Nat) (before after : List Statement) : Prop :=
  tariff.Eases Statement.hollowAccessorsList tariff.blockWeight count before after

variable {tariff}

namespace Eases

variable {hollow weight : α → Nat} {count more : Nat} {first second third : α}

/-- A node eases itself. -/
theorem refl (node : α) : tariff.Eases hollow weight 0 node node where
  sound := id
  lighter _ := Nat.le_refl _

/-- Easing adds up. -/
theorem trans (former : tariff.Eases hollow weight count first second)
    (latter : tariff.Eases hollow weight more second third) :
    tariff.Eases hollow weight (count + more) first third where
  sound none := latter.sound (former.sound none)
  lighter admits := by
    have admitsLatter : tariff.Admits (hollow second) := fun completes spreads =>
      former.sound (admits completes spreads)
    have := former.lighter admits
    have := latter.lighter admitsLatter
    omega

end Eases

/-- An expression lightens itself. -/
theorem Lightens.refl (expr : Expr) : tariff.Lightens 0 expr expr where
  toEases := .refl expr
  form := rfl

/-- Lightening adds up. -/
theorem Lightens.trans {count more : Nat} {first second third : Expr}
    (former : tariff.Lightens count first second) (latter : tariff.Lightens more second third) :
    tariff.Lightens (count + more) first third where
  toEases := former.toEases.trans latter.toEases
  form := latter.form.trans former.form

/-! ## Lists of parts -/

section Arguments

variable {count : Nat} {before after : List Expr}

/-- Lightened parts keep their forms. -/
theorem map_form_eq (each : Pass.Each tariff.Lightens count before after) :
    after.map (Expr.form tariff.owner) = before.map (Expr.form tariff.owner) := by
  induction each with
  | nil => rfl
  | cons lightens _ ih =>
    rw [List.map_cons, List.map_cons, lightens.form, ih]

/-- Expressions that get lighter one by one get lighter together, also as arguments of a call, before
a text and behind one. -/
theorem eases_of_each (each : Pass.Each tariff.Lightens count before after) :
    tariff.Eases (total Expr.hollowAccessors) (total tariff.weight) count before after ∧
      tariff.Eases (total Expr.hollowAccessors) tariff.trail count before after ∧
      tariff.Eases (total Expr.hollowAccessors) tariff.load count before after := by
  induction each with
  | nil => exact ⟨.refl [], .refl [], .refl []⟩
  | @cons count more expr visited rest others lightens each ih =>
    obtain ⟨onTotal, onTrail, onLoad⟩ := ih
    have sound (clean : total Expr.hollowAccessors (expr :: rest) = 0) :
        total Expr.hollowAccessors (visited :: others) = 0 := by
      rw [total_cons] at clean ⊢
      have := lightens.sound (by omega)
      have := onTotal.sound (by omega)
      omega
    have admitsBoth (admits : tariff.Admits (total Expr.hollowAccessors (expr :: rest))) :
        tariff.Admits expr.hollowAccessors ∧ tariff.Admits (total Expr.hollowAccessors rest) := by
      rw [total_cons] at admits
      exact ⟨admits.mono (by omega), admits.mono (by omega)⟩
    have forms := map_form_eq each
    have text : visited.isText = expr.isText := congrArg Expr.Form.isText lightens.form
    have empty : others.isEmpty = rest.isEmpty := by
      simpa using congrArg List.isEmpty forms
    have hollow := Expr.endsHollow_eq forms
    refine ⟨⟨sound, fun admits => ?_⟩, ⟨sound, fun admits => ?_⟩, ⟨sound, fun admits => ?_⟩⟩
    all_goals
      obtain ⟨first, second⟩ := admitsBoth admits
      have := lightens.lighter first
    · have := onTotal.lighter second
      rw [total_cons, total_cons]
      omega
    · have := onTrail.lighter second
      rw [trail, trail, empty, hollow]
      split <;> omega
    · have := onTrail.lighter second
      have := onLoad.lighter second
      rw [load, load, text]
      split <;> omega

/-- The extras of a call depend on the form of its arguments only. -/
theorem charge_eq (same : after.map (Expr.form tariff.owner) = before.map (Expr.form tariff.owner))
    (name : String) (method : Option ResolvedMethod) :
    tariff.charge name after method = tariff.charge name before method := by
  have length : after.length = before.length := by simpa using congrArg List.length same
  simp only [charge, messageCharge, levelCharge, keyCharge, Expr.any_isText_eq same,
    Expr.any_isKeyOf_eq same, Expr.jointsList_eq same, length]

end Arguments

/-! ## Expressions -/

section Whole

variable {β γ : Type} {hollow weight : α → Nat} {otherHollow otherWeight : β → Nat}
  {wholeHollow wholeWeight : γ → Nat} {count more : Nat} {first second : α}
  {third fourth : β} {before after : γ}

/-- A whole that is made of two parts eases with them. -/
theorem Eases.add (former : tariff.Eases hollow weight count first second)
    (latter : tariff.Eases otherHollow otherWeight more third fourth)
    (hollowBefore : wholeHollow before = hollow first + otherHollow third)
    (hollowAfter : wholeHollow after = hollow second + otherHollow fourth)
    (weightBefore : wholeWeight before = weight first + otherWeight third)
    (weightAfter : wholeWeight after = weight second + otherWeight fourth) :
    tariff.Eases wholeHollow wholeWeight (count + more) before after where
  sound none := by
    have := former.sound (by omega)
    have := latter.sound (by omega)
    omega
  lighter admits := by
    have := former.lighter (admits.mono (by omega))
    have := latter.lighter (admits.mono (by omega))
    omega

/-- Two parts ease together. -/
theorem Eases.pair (former : tariff.Eases hollow weight count first second)
    (latter : tariff.Eases otherHollow otherWeight more third fourth) :
    tariff.Eases (fun parts : α × β => hollow parts.1 + otherHollow parts.2)
      (fun parts => weight parts.1 + otherWeight parts.2) (count + more) (first, third)
      (second, fourth) :=
  former.add latter rfl rfl rfl rfl

end Whole

/-- A call with its receiver and its arguments gets lighter. -/
theorem lightens_methodCall {count more : Nat} {select visited : Option Expr}
    {arguments others : List Expr} (name : String) (method : Option ResolvedMethod)
    (held : Pass.Held tariff.Lightens count select visited)
    (each : Pass.Each tariff.Lightens more arguments others) :
    tariff.Lightens (count + more) (.methodCall select name arguments method)
      (.methodCall visited name others method) := by
  obtain ⟨-, -, onLoad⟩ := eases_of_each each
  have forms := map_form_eq each
  have empty : others.isEmpty = arguments.isEmpty := by simpa using congrArg List.isEmpty forms
  have charge := charge_eq forms name method
  have parts {newParts parts : Nat} (lighter : newParts + (count + more) ≤ parts) :
      tariff.price name others method newParts + (count + more) ≤
        tariff.price name arguments method parts := by
    rw [price, price, charge]
    split <;> omega
  cases held with
  | none =>
    refine ⟨⟨fun clean => ?_, fun admits => ?_⟩, ?_⟩
    · rw [Expr.hollowAccessors, Expr.hollowAccessorsList_eq_total] at clean ⊢
      exact onLoad.sound clean
    · rw [Expr.hollowAccessors, Expr.hollowAccessorsList_eq_total] at admits
      rw [weight, weight]
      exact parts (by have := onLoad.lighter admits; omega)
    · rw [Expr.form_methodCall, Expr.form_methodCall, empty]
  | @some _ select visited lightens =>
    have hollow : visited.isHollow = select.isHollow := congrArg Expr.Form.isHollow lightens.form
    have isClass : visited.isClassOf tariff.owner = select.isClassOf tariff.owner :=
      congrArg Expr.Form.isClass lightens.form
    have asks : Expr.asksHollow visited name others = Expr.asksHollow select name arguments := by
      rw [Expr.asksHollow, Expr.asksHollow, empty, hollow]
    refine ⟨⟨fun clean => ?_, fun admits => ?_⟩, ?_⟩
    · rw [Expr.hollowAccessors, Expr.hollowAccessorsList_eq_total] at clean ⊢
      have := lightens.sound (by omega)
      have := onLoad.sound (by omega)
      rw [asks]
      omega
    · rw [Expr.hollowAccessors, Expr.hollowAccessorsList_eq_total] at admits
      have := lightens.lighter (admits.mono (by omega))
      have := onLoad.lighter (admits.mono (by omega))
      rw [weight, weight]
      exact parts (by omega)
    · rw [Expr.form_methodCall, Expr.form_methodCall, empty, Option.any_some, Option.any_some,
        Option.any_some, Option.any_some, hollow, isClass]

/-- An expression whose parts have got lighter has got lighter. -/
theorem lightens_rebuilt {count : Nat} {before after : Expr}
    (rebuilt : Pass.Rebuilt tariff.Lightens tariff.LightensBlock count before after) :
    tariff.Lightens count before after := by
  cases rebuilt with
  | literal value => exact .refl _
  | identifier name type => exact .refl _
  | typeRef fqn => exact .refl _
  | classLiteral fqn => exact .refl _
  | fieldAccess name type onTarget =>
    refine ⟨⟨?_, ?_⟩, rfl⟩
    · simpa only [Expr.hollowAccessors] using onTarget.sound
    · simpa only [Expr.hollowAccessors, weight] using onTarget.lighter
  | methodCall name method onSelect onArguments =>
    exact lightens_methodCall name method onSelect onArguments
  | binary operator type onLeft onRight =>
    refine ⟨onLeft.toEases.add onRight.toEases ?_ ?_ ?_ ?_, ?_⟩
    · rw [Expr.hollowAccessors]
    · rw [Expr.hollowAccessors]
    · rw [weight]
    · rw [weight]
    · cases operator <;> cases type <;> rfl
  | newClass type onArguments =>
    obtain ⟨onTotal, -, -⟩ := eases_of_each onArguments
    refine ⟨⟨?_, ?_⟩, rfl⟩
    · simpa only [Expr.hollowAccessors, Expr.hollowAccessorsList_eq_total] using onTotal.sound
    · simpa only [Expr.hollowAccessors, Expr.hollowAccessorsList_eq_total, weight,
        weightList_eq_total] using onTotal.lighter
  | newArray element onElements =>
    obtain ⟨onTotal, -, -⟩ := eases_of_each onElements
    have forms := map_form_eq onElements
    refine ⟨⟨?_, ?_⟩, ?_⟩
    · simpa only [Expr.hollowAccessors, Expr.hollowAccessorsList_eq_total] using onTotal.sound
    · intro admits
      rw [Expr.hollowAccessors, Expr.hollowAccessorsList_eq_total] at admits
      have := onTotal.lighter admits
      rw [weight_newArray, weight_newArray]
      omega
    · simp only [Expr.form, Expr.isHollow, Expr.joints, Expr.endsHollow_eq forms,
        Expr.jointsList_eq forms]
      rfl
  | lambda parameters onBody =>
    refine ⟨⟨?_, ?_⟩, rfl⟩
    · simpa only [Expr.hollowAccessors] using onBody.sound
    · simpa only [Expr.hollowAccessors, weight] using onBody.lighter
  | parens onInner =>
    refine ⟨⟨?_, ?_⟩, ?_⟩
    · simpa only [Expr.hollowAccessors] using onInner.sound
    · simpa only [Expr.hollowAccessors, weight] using onInner.lighter
    · rw [Expr.form_parens, Expr.form_parens, onInner.form]

/-! ## Statements -/

/-- The handlers ease with their bodies. -/
theorem eases_catches {count : Nat} {before after : List CatchClause}
    (each : Pass.Each (Pass.RebuiltCatch tariff.LightensBlock) count before after) :
    tariff.Eases CatchClause.hollowAccessorsList tariff.catchesWeight count before after := by
  induction each with
  | nil => exact .refl []
  | cons rebuilt _ ih =>
    cases rebuilt with
    | handler parameter type onBody =>
      refine onBody.add ih ?_ ?_ ?_ ?_
      · rw [CatchClause.hollowAccessorsList]
      · rw [CatchClause.hollowAccessorsList]
      · rw [catchesWeight]
      · rw [catchesWeight]

/-- A statement whose parts have got lighter has got lighter. -/
theorem eases_rebuiltStatement {count : Nat} {before after : Statement}
    (rebuilt : Pass.RebuiltStatement tariff.Lightens tariff.LightensBlock count before after) :
    tariff.Eases Statement.hollowAccessors tariff.statementWeight count before after := by
  cases rebuilt with
  | expression onValue =>
    refine ⟨?_, ?_⟩
    · simpa only [Statement.hollowAccessors] using onValue.sound
    · simpa only [Statement.hollowAccessors, statementWeight] using onValue.lighter
  | declaration name type onInitial =>
    cases onInitial with
    | none => exact .refl _
    | some onInitial =>
      refine ⟨?_, ?_⟩
      · simpa only [Statement.hollowAccessors] using onInitial.sound
      · simpa only [Statement.hollowAccessors, statementWeight] using onInitial.lighter
  | block onBody =>
    refine ⟨?_, ?_⟩
    · simpa only [Statement.hollowAccessors] using onBody.sound
    · simpa only [Statement.hollowAccessors, statementWeight] using onBody.lighter
  | conditional onCondition onThen onElse =>
    cases onElse with
    | none =>
      refine onCondition.toEases.add onThen ?_ ?_ ?_ ?_
      · rw [Statement.hollowAccessors]
      · rw [Statement.hollowAccessors]
      · rw [statementWeight]
      · rw [statementWeight]
    | some onElse =>
      refine onCondition.toEases.add (onThen.pair onElse) ?_ ?_ ?_ ?_
      · rw [Statement.hollowAccessors]
      · rw [Statement.hollowAccessors]
      · rw [statementWeight]
      · rw [statementWeight]
  | guarded onBody onCatches onFinally =>
    have onCatches := eases_catches onCatches
    cases onFinally with
    | none =>
      refine onBody.add onCatches ?_ ?_ ?_ ?_
      · rw [Statement.hollowAccessors]
      · rw [Statement.hollowAccessors]
      · rw [statementWeight]
      · rw [statementWeight]
    | some onFinally =>
      refine onBody.add (onCatches.pair onFinally) ?_ ?_ ?_ ?_
      · rw [Statement.hollowAccessors]
      · rw [Statement.hollowAccessors]
      · rw [statementWeight]
      · rw [statementWeight]
  | returning onValue =>
    cases onValue with
    | none => exact .refl _
    | some onValue =>
      refine ⟨?_, ?_⟩
      · simpa only [Statement.hollowAccessors] using onValue.sound
      · simpa only [Statement.hollowAccessors, statementWeight] using onValue.lighter

/-- Statements that get lighter one by one get lighter together. -/
theorem lightensBlock_of_each {count : Nat} {before after : List Statement}
    (each : Pass.Each (Pass.RebuiltStatement tariff.Lightens tariff.LightensBlock) count before
      after) : tariff.LightensBlock count before after := by
  induction each with
  | nil => exact .refl []
  | cons rebuilt _ ih =>
    refine (eases_rebuiltStatement rebuilt).add ih ?_ ?_ ?_ ?_
    · rw [Statement.hollowAccessorsList]
    · rw [Statement.hollowAccessorsList]
    · rw [blockWeight]
    · rw [blockWeight]

/-! ## Visits -/

/-- If the offers to all rules lighten expressions and blocks, so do the visits. -/
theorem visitRelation {rules : List Rule} {sees : Progress → Prop}
    (exprs : ∀ depth, ∀ rule ∈ rules, ∀ expr,
      Pass.Yields sees (tariff.Lightens · expr) (Pass.offerExpr depth expr rule))
    (blocks : ∀ depth, ∀ rule ∈ rules, ∀ block,
      Pass.Yields sees (tariff.LightensBlock · block) (Pass.offerBlock depth block rule)) :
    Pass.VisitRelation rules sees (fun _ => tariff.Lightens) (fun _ => tariff.LightensBlock)
      tariff.Lightens tariff.LightensBlock where
  unvisited := .refl
  node rebuilt offered := (lightens_rebuilt rebuilt).trans offered
  block offered each := offered.trans (lightensBlock_of_each each)
  offersExpr depth expr :=
    Pass.Yields.foldOffers Lightens.refl Lightens.trans rules expr (exprs depth)
  offersBlock depth block := Pass.Yields.foldOffers Eases.refl Eases.trans rules block (blocks depth)

end Tariff

end LogCalls
