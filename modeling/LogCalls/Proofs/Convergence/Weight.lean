import LogCalls.Proofs.Rule.Replacement
import Mathlib.Algebra.GroupWithZero.Nat

/-! # Weights

A number for every tree that goes down with every replacement. What a call can still become is what it
weighs:

* A call that is not a call of the target framework may be written anew for it, so all that it holds
  counts twice, and the move itself a hundred.
* Arguments before a text may come to stand behind one, and the last argument behind a text may be
  completed by the exception that it asks. These count twice, the others behind a text once. Behind a
  text that is followed by an array that is hollow at its end, all count twice, for when such an array
  is spread the argument before it becomes the last.
* A message that is not a text yet, a method for the severity that is to be changed, a level that has a
  method of its own and a logger that is named after another class count extra. -/

namespace LogCalls

namespace Expr

/-- The expression is a string literal, in parentheses or not. -/
def isText (expr : Expr) : Bool := expr.bare.stringLiteral?.isSome

/-- The expression is the class object of the named class. -/
def isClassOf (owner : String) (expr : Expr) : Bool :=
  match expr.bare with
  | .classLiteral fqn => fqn == owner
  | _ => false

/-- The expression names the class, as a class object or by its name. -/
def isKeyOf (owner : String) (expr : Expr) : Bool :=
  expr.isClassOf owner ||
    match expr.bare with
    | .methodCall (some select) name [] _ =>
      (name == "getName" || name == "getCanonicalName") && select.isClassOf owner
    | _ => false

mutual

/-- The expression is an array of objects that has nothing at its end, or a hollow array, or it is a
call for the text of such an array. -/
def isHollow : Expr → Bool
  | .newArray element elements => element.typeName == ClassName.object && endsHollow elements
  | .methodCall (some select) name arguments _ =>
    name == "toString" && arguments.isEmpty && select.isHollow
  | _ => false

/-- There is no last expression, or it is hollow. -/
def endsHollow : List Expr → Bool
  | [] => true
  | expr :: rest => if rest.isEmpty then expr.isHollow else endsHollow rest

end

mutual

/-- How many concatenations the expression is, or has among the elements of an array that it is. -/
def joints : Expr → Nat
  | .parens inner => inner.joints
  | .binary .add _ _ (some type) => if type.isString then 1 else 0
  | .newArray _ elements => jointsList elements
  | _ => 0

/-- How many concatenations the expressions are. -/
def jointsList : List Expr → Nat
  | [] => 0
  | expr :: rest => expr.joints + jointsList rest

end

/-- A call asks the receiver for its message as exceptions are asked, although it is hollow. -/
def asksHollow (select : Expr) (name : String) (arguments : List Expr) : Bool :=
  errorAccessors.contains name && arguments.isEmpty && select.isHollow

end Expr

mutual

/-- How many requests for a message in the expression are put to a hollow array. -/
def Expr.hollowAccessors : Expr → Nat
  | .literal _ => 0
  | .identifier _ _ => 0
  | .typeRef _ => 0
  | .fieldAccess target _ _ => target.hollowAccessors
  | .methodCall (some select) name arguments _ =>
    select.hollowAccessors + Expr.hollowAccessorsList arguments +
      if Expr.asksHollow select name arguments then 1 else 0
  | .methodCall none _ arguments _ => Expr.hollowAccessorsList arguments
  | .binary _ left right _ => left.hollowAccessors + right.hollowAccessors
  | .newClass _ arguments => Expr.hollowAccessorsList arguments
  | .newArray _ elements => Expr.hollowAccessorsList elements
  | .classLiteral _ => 0
  | .lambda _ body => Statement.hollowAccessorsList body
  | .parens inner => inner.hollowAccessors

/-- How many requests in a list of expressions are put to a hollow array. -/
def Expr.hollowAccessorsList : List Expr → Nat
  | [] => 0
  | expr :: rest => expr.hollowAccessors + Expr.hollowAccessorsList rest

/-- How many requests in a statement are put to a hollow array. -/
def Statement.hollowAccessors : Statement → Nat
  | .expression value => value.hollowAccessors
  | .declaration _ _ (some initial) => initial.hollowAccessors
  | .declaration _ _ none => 0
  | .block body => Statement.hollowAccessorsList body
  | .conditional condition thenBranch (some elseBranch) =>
    condition.hollowAccessors + (Statement.hollowAccessorsList thenBranch +
      Statement.hollowAccessorsList elseBranch)
  | .conditional condition thenBranch none =>
    condition.hollowAccessors + Statement.hollowAccessorsList thenBranch
  | .guarded body catches (some finallyBlock) =>
    Statement.hollowAccessorsList body + (CatchClause.hollowAccessorsList catches +
      Statement.hollowAccessorsList finallyBlock)
  | .guarded body catches none =>
    Statement.hollowAccessorsList body + CatchClause.hollowAccessorsList catches
  | .returning (some value) => value.hollowAccessors
  | .returning none => 0

/-- How many requests in a block are put to a hollow array. -/
def Statement.hollowAccessorsList : List Statement → Nat
  | [] => 0
  | statement :: rest => statement.hollowAccessors + Statement.hollowAccessorsList rest

/-- How many requests in handlers are put to a hollow array. -/
def CatchClause.hollowAccessorsList : List CatchClause → Nat
  | [] => 0
  | .handler _ _ body :: rest =>
    Statement.hollowAccessorsList body + CatchClause.hollowAccessorsList rest

end

/-- What the weight of a tree depends on. -/
structure Tariff where
  /-- The framework that calls are written for. -/
  target : Framework
  /-- The severity that is to be changed, if there is one. -/
  source : Option Severity
  /-- Arrays of parameters are spread. -/
  spreads : Bool
  /-- Exceptions that are asked for their message are passed as well. -/
  completes : Bool
  /-- The name of the logger that a class may be given. -/
  loggerName : String
  /-- The class that the tree stands in. -/
  owner : String

namespace Tariff

/-- The call is one of the target framework, by the class that declares the method. -/
def isSettled (tariff : Tariff) (name : String) (method : Option ResolvedMethod) : Bool :=
  method.any fun resolved =>
    (Signature.find? resolved.declaringType name).any (·.framework == some tariff.target)

/-- What a message that is not a text yet counts extra, and each concatenation among the arguments.
Calls of a target framework without templates keep their concatenations. -/
def messageCharge (tariff : Tariff) (name : String) (arguments : List Expr)
    (method : Option ResolvedMethod) : Nat :=
  if arguments.any (·.isText) ||
      (tariff.isSettled name method && tariff.target.templateStyle == .concatenation) then 0
  else 8 * (1 + Expr.jointsList arguments)

/-- The name is that of a method for the severity. -/
def isMethodFor (severity : Severity) (name : String) : Bool :=
  Framework.all.any fun framework => framework.supports severity && framework.methodFor severity == name

/-- What a method for the severity that is to be changed counts extra. -/
def severityCharge (tariff : Tariff) (name : String) : Nat :=
  if tariff.source.any (isMethodFor · name) then 1 else 0

/-- What a level that may have a method of its own counts extra. -/
def levelCharge (name : String) (arguments : List Expr) (method : Option ResolvedMethod) : Nat :=
  if name == "log" && arguments.length == 2 &&
      method.any (·.declaringType == Framework.jul.loggerType) then 3
  else 0

/-- What a logger that is not named after its class counts extra. -/
def keyCharge (tariff : Tariff) (name : String) (arguments : List Expr) : Nat :=
  if (name == "getLogger" || name == "getLog") && arguments.length == 1 &&
      !arguments.any (·.isKeyOf tariff.owner) then 1
  else 0

/-- What a call counts extra. -/
def charge (tariff : Tariff) (name : String) (arguments : List Expr)
    (method : Option ResolvedMethod) : Nat :=
  tariff.messageCharge name arguments method + tariff.severityCharge name +
    levelCharge name arguments method + tariff.keyCharge name arguments

/-- The weight of a call with its extras, whose parts weigh as much. -/
def price (tariff : Tariff) (name : String) (arguments : List Expr)
    (method : Option ResolvedMethod) (parts : Nat) : Nat :=
  let charged := parts + tariff.charge name arguments method
  if tariff.isSettled name method then charged + 1 else 2 * charged + 100

mutual

/-- The weight of an expression. -/
def weight (tariff : Tariff) : Expr → Nat
  | .literal _ => 0
  | .identifier _ _ => 0
  | .typeRef _ => 0
  | .fieldAccess target _ _ => tariff.weight target
  | .methodCall (some select) name arguments method =>
    tariff.price name arguments method (tariff.weight select + tariff.load arguments)
  | .methodCall none name arguments method =>
    tariff.price name arguments method (tariff.load arguments)
  | .binary _ left right _ => tariff.weight left + tariff.weight right
  | .newClass _ arguments => tariff.weightList arguments
  | .newArray _ elements => tariff.weightList elements + 1
  | .classLiteral _ => 0
  | .lambda _ body => tariff.blockWeight body
  | .parens inner => tariff.weight inner

/-- The weight of expressions together. -/
def weightList (tariff : Tariff) : List Expr → Nat
  | [] => 0
  | expr :: rest => tariff.weight expr + tariff.weightList rest

/-- The weight of the arguments of a call. -/
def load (tariff : Tariff) : List Expr → Nat
  | [] => 0
  | expr :: rest =>
    if expr.isText then tariff.weight expr + tariff.trail rest
    else 2 * tariff.weight expr + tariff.load rest

/-- The weight of the arguments behind a text. -/
def trail (tariff : Tariff) : List Expr → Nat
  | [] => 0
  | expr :: rest =>
    (if rest.isEmpty || (tariff.spreads && Expr.endsHollow rest) then 2 * tariff.weight expr
      else tariff.weight expr) + tariff.trail rest

/-- The weight of a statement. -/
def statementWeight (tariff : Tariff) : Statement → Nat
  | .expression value => tariff.weight value
  | .declaration _ _ (some initial) => tariff.weight initial
  | .declaration _ _ none => 0
  | .block body => tariff.blockWeight body
  | .conditional condition thenBranch (some elseBranch) =>
    tariff.weight condition + (tariff.blockWeight thenBranch + tariff.blockWeight elseBranch)
  | .conditional condition thenBranch none =>
    tariff.weight condition + tariff.blockWeight thenBranch
  | .guarded body catches (some finallyBlock) =>
    tariff.blockWeight body + (tariff.catchesWeight catches + tariff.blockWeight finallyBlock)
  | .guarded body catches none => tariff.blockWeight body + tariff.catchesWeight catches
  | .returning (some value) => tariff.weight value
  | .returning none => 0

/-- The weight of a block. -/
def blockWeight (tariff : Tariff) : List Statement → Nat
  | [] => 0
  | statement :: rest => tariff.statementWeight statement + tariff.blockWeight rest

/-- The weight of handlers. -/
def catchesWeight (tariff : Tariff) : List CatchClause → Nat
  | [] => 0
  | .handler _ _ body :: rest => tariff.blockWeight body + tariff.catchesWeight rest

end

end Tariff

/-! ## Numbers that add up -/

/-- The values of nodes together. -/
def total {α : Type} (value : α → Nat) (nodes : List α) : Nat := (nodes.map value).sum

section Total

variable {α : Type} (value : α → Nat)

/-- Nothing has no value. -/
@[simp] theorem total_nil : total value [] = 0 := rfl

/-- A total is taken item by item. -/
@[simp] theorem total_cons (node : α) (rest : List α) :
    total value (node :: rest) = value node + total value rest := rfl

/-- Totals of parts add up. -/
@[simp] theorem total_append (front back : List α) :
    total value (front ++ back) = total value front + total value back := by
  rw [total, List.map_append, List.sum_append, total, total]

/-- Nothing together is nothing each. -/
theorem total_eq_zero_iff {nodes : List α} :
    total value nodes = 0 ↔ ∀ node ∈ nodes, value node = 0 := by
  rw [total, List.sum_eq_zero_iff_forall_eq_nat, List.forall_mem_map]

/-- Those that pass a test are counted one by one. -/
theorem countP_eq_total (test : α → Bool) (nodes : List α) :
    nodes.countP test = total (fun node => if test node then 1 else 0) nodes := by
  induction nodes with
  | nil => rfl
  | cons node rest ih => rw [List.countP_cons, ih, total_cons, Nat.add_comm]

end Total

/-- A number for every expression that adds up over concatenations and arrays, is nothing for texts and
names, and is at least as much for a call as for its parts. An array counts `wrap` by itself. -/
structure Valuation (value : Expr → Nat) (wrap : Nat) : Prop where
  literal (literal : Literal) : value (.literal literal) = 0
  identifier (name : String) (type : Option JavaType) : value (.identifier name type) = 0
  typeRef (fqn : String) : value (.typeRef fqn) = 0
  classLiteral (fqn : String) : value (.classLiteral fqn) = 0
  fieldAccess (target : Expr) (name : String) (type : Option JavaType) :
    value (.fieldAccess target name type) = value target
  parens (inner : Expr) : value (.parens inner) = value inner
  binary (operator : BinaryOperator) (left right : Expr) (type : Option JavaType) :
    value (.binary operator left right type) = value left + value right
  newArray (element : JavaType) (elements : List Expr) :
    value (.newArray element elements) = total value elements + wrap
  call (select : Option Expr) (name : String) (arguments : List Expr)
    (method : Option ResolvedMethod) :
    total value select.toList + total value arguments ≤
      value (.methodCall select name arguments method)

/-- Parentheses count nothing. -/
theorem Valuation.bare {value : Expr → Nat} {wrap : Nat} (valuation : Valuation value wrap)
    (expr : Expr) : value expr.bare = value expr := by
  fun_induction Expr.bare expr with
  | case1 inner ih => rw [ih, valuation.parens]
  | case2 => rfl

/-- A text counts nothing. -/
theorem Valuation.text {value : Expr → Nat} {wrap : Nat} (valuation : Valuation value wrap)
    {expr : Expr} (text : expr.isText = true) : value expr = 0 := by
  obtain ⟨raw, literal⟩ := Option.isSome_iff_exists.mp text
  rw [← valuation.bare, Expr.stringLiteral?_eq_some_iff.mp literal]
  exact valuation.literal _

namespace Expr

/-- The back decides how a list ends. -/
theorem endsHollow_append (front : List Expr) {back : List Expr} (nonempty : back ≠ []) :
    endsHollow (front ++ back) = endsHollow back := by
  induction front with
  | nil => rfl
  | cons expr rest ih =>
    have more : (rest ++ back).isEmpty = false := by simp [nonempty]
    rw [List.cons_append, endsHollow, more, ih]
    rfl

/-- One item ends as it is. -/
theorem endsHollow_singleton (expr : Expr) : endsHollow [expr] = expr.isHollow := rfl

/-- Hollow accessors are a total. -/
theorem hollowAccessorsList_eq_total (exprs : List Expr) :
    hollowAccessorsList exprs = total hollowAccessors exprs := by
  induction exprs with
  | nil => rfl
  | cons expr rest ih =>
    rw [hollowAccessorsList, ih, total_cons]

/-- Hollow accessors are a valuation. -/
theorem valuation_hollowAccessors : Valuation hollowAccessors 0 where
  literal _ := rfl
  identifier _ _ := rfl
  typeRef _ := rfl
  classLiteral _ := rfl
  fieldAccess _ _ _ := by rw [hollowAccessors]
  parens _ := by rw [hollowAccessors]
  binary _ _ _ _ := by rw [hollowAccessors]
  newArray _ elements := by rw [hollowAccessors, hollowAccessorsList_eq_total, Nat.add_zero]
  call select name arguments method := by
    cases select with
    | none => simp [hollowAccessors, hollowAccessorsList_eq_total]
    | some select => simp [hollowAccessors, hollowAccessorsList_eq_total]

end Expr

namespace Tariff

variable (tariff : Tariff)

/-- A list weighs a total. -/
theorem weightList_eq_total (exprs : List Expr) :
    tariff.weightList exprs = total tariff.weight exprs := by
  induction exprs with
  | nil => rfl
  | cons expr rest ih => rw [weightList, ih, total_cons]

/-- The weight of a call is the price for its receiver and its arguments. -/
theorem weight_methodCall (select : Option Expr) (name : String) (arguments : List Expr)
    (method : Option ResolvedMethod) :
    tariff.weight (.methodCall select name arguments method) =
      tariff.price name arguments method
        (total tariff.weight select.toList + tariff.load arguments) := by
  cases select with
  | none => simp [weight]
  | some select => simp [weight]

/-- An array weighs one more than its elements. -/
theorem weight_newArray (element : JavaType) (elements : List Expr) :
    tariff.weight (.newArray element elements) = total tariff.weight elements + 1 := by
  rw [weight, weightList_eq_total]

/-! ## Arguments -/

/-- An item trails once or twice its weight. -/
theorem trail_cons_le (expr : Expr) (rest : List Expr) :
    tariff.weight expr + tariff.trail rest ≤ tariff.trail (expr :: rest) ∧
      tariff.trail (expr :: rest) ≤ 2 * tariff.weight expr + tariff.trail rest := by
  rw [trail]
  split <;> omega

/-- A trail is no less than the total. -/
theorem total_le_trail (exprs : List Expr) : total tariff.weight exprs ≤ tariff.trail exprs := by
  induction exprs with
  | nil => simp
  | cons expr rest ih =>
    have := (tariff.trail_cons_le expr rest).1
    rw [total_cons]
    omega

/-- Arguments count at most twice behind a text. -/
theorem trail_append_le (front back : List Expr) :
    tariff.trail (front ++ back) ≤ 2 * total tariff.weight front + tariff.trail back := by
  induction front with
  | nil => simp
  | cons expr rest ih =>
    have := (tariff.trail_cons_le expr (rest ++ back)).2
    rw [List.cons_append, total_cons]
    omega

/-- A trail is at most twice the total. -/
theorem trail_le (exprs : List Expr) : tariff.trail exprs ≤ 2 * total tariff.weight exprs := by
  have := tariff.trail_append_le exprs []
  rwa [List.append_nil, trail, Nat.add_zero] at this

/-- Behind a text the last argument counts twice, and the others do if it is hollow. -/
theorem trail_concat (front : List Expr) (last : Expr) :
    tariff.trail (front ++ [last]) =
      (if tariff.spreads && last.isHollow then 2 else 1) * total tariff.weight front +
        2 * tariff.weight last := by
  induction front with
  | nil => simp [trail]
  | cons expr rest ih =>
    have more : (rest ++ [last]).isEmpty = false := by simp
    rw [List.cons_append, trail, ih, more,
      Expr.endsHollow_append rest (List.cons_ne_nil last []), Expr.endsHollow_singleton,
      Bool.false_or, total_cons, Nat.mul_add]
    split <;> omega

/-- A load is no less than the total. -/
theorem total_le_load (exprs : List Expr) : total tariff.weight exprs ≤ tariff.load exprs := by
  induction exprs with
  | nil => simp
  | cons expr rest ih =>
    have := tariff.total_le_trail rest
    rw [load, total_cons]
    split <;> omega

/-- And no more than twice the total. -/
theorem load_le (exprs : List Expr) : tariff.load exprs ≤ 2 * total tariff.weight exprs := by
  induction exprs with
  | nil => simp [load]
  | cons expr rest ih =>
    have := tariff.trail_le rest
    rw [load, total_cons]
    split <;> omega

/-- Before a text all arguments count twice. -/
theorem load_append {front : List Expr} (textless : ∀ expr ∈ front, expr.isText = false)
    (back : List Expr) :
    tariff.load (front ++ back) = 2 * total tariff.weight front + tariff.load back := by
  induction front with
  | nil => simp
  | cons expr rest ih =>
    have other : expr.isText = false := textless expr List.mem_cons_self
    rw [List.cons_append, load, other, total_cons,
      ih fun next member => textless next (List.mem_cons_of_mem expr member)]
    simp only [Bool.false_eq_true, if_false]
    omega

/-- Without a text all items load twice. -/
theorem load_of_textless {exprs : List Expr} (textless : ∀ expr ∈ exprs, expr.isText = false) :
    tariff.load exprs = 2 * total tariff.weight exprs := by
  have := tariff.load_append textless []
  rwa [List.append_nil, load, Nat.add_zero] at this

/-! ## Prices -/

/-- A price is above the parts and the charge. -/
theorem le_price (name : String) (arguments : List Expr) (method : Option ResolvedMethod)
    (parts : Nat) :
    parts + tariff.charge name arguments method < tariff.price name arguments method parts := by
  rw [price]
  split <;> omega

/-- The weight is a valuation in which an array counts one by itself. -/
theorem valuation_weight : Valuation tariff.weight 1 where
  literal _ := rfl
  identifier _ _ := rfl
  typeRef _ := rfl
  classLiteral _ := rfl
  fieldAccess _ _ _ := by rw [weight]
  parens _ := by rw [weight]
  binary _ _ _ _ := by rw [weight]
  newArray := tariff.weight_newArray
  call select name arguments method := by
    rw [weight_methodCall]
    have := tariff.total_le_load arguments
    have := tariff.le_price name arguments method
      (total tariff.weight select.toList + tariff.load arguments)
    omega

/-- A text is free, and the rest trails it. -/
theorem load_text {text : Expr} (isText : text.isText = true) (rest : List Expr) :
    tariff.load (text :: rest) = tariff.trail rest := by
  rw [load, if_pos isText, tariff.valuation_weight.text isText, Nat.zero_add]

/-- The arguments of a call count at least as much as behind a text. -/
theorem trail_le_load (exprs : List Expr) : tariff.trail exprs ≤ tariff.load exprs := by
  induction exprs with
  | nil => simp [trail, load]
  | cons expr rest ih =>
    have := (tariff.trail_cons_le expr rest).2
    rw [load]
    split
    · rename_i text
      have := tariff.valuation_weight.text text
      omega
    · omega

section Price

variable {name newName : String} {arguments newArguments : List Expr}
  {method newMethod : Option ResolvedMethod} {parts newParts : Nat}

/-- A call gets lighter with its parts and extras, if it does not leave the target framework. -/
theorem price_lt (settles : tariff.isSettled name method = true →
      tariff.isSettled newName newMethod = true)
    (lighter : newParts + tariff.charge newName newArguments newMethod <
      parts + tariff.charge name arguments method) :
    tariff.price newName newArguments newMethod newParts < tariff.price name arguments method parts := by
  simp only [price]
  split
  · split <;> omega
  · rename_i unsettled
    rw [if_neg fun settled => unsettled (settles settled)]
    omega

/-- A call that moves to the target framework may get heavier for that. -/
theorem price_lt_of_moves (unsettled : tariff.isSettled name method = false)
    (settled : tariff.isSettled newName newMethod = true)
    (bounded : newParts + tariff.charge newName newArguments newMethod ≤ 2 * parts + 98) :
    tariff.price newName newArguments newMethod newParts < tariff.price name arguments method parts := by
  simp only [price, unsettled, settled, Bool.false_eq_true, if_true, if_false]
  omega

end Price

end Tariff

end LogCalls
