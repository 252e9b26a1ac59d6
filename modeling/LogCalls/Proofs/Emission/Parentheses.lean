import LogCalls.Proofs.Convergence.Messages
import LogCalls.Proofs.Message.Concatenation

/-! # Parentheses in written calls

Source text is printed from a tree without adding parentheses, so it reads back as the same tree only
if the tree has them wherever an operation would otherwise be taken apart. What is written for an event
keeps to this, with one exception: a message that consists of an operation whose value is not a string
is put behind an empty string as it is when an exception is attached to an indexed call. -/

namespace LogCalls

/-- How tightly an operator binds its operands. -/
def BinaryOperator.precedence : BinaryOperator → Nat
  | or => 1
  | and => 2
  | equal => 3
  | notEqual => 3
  | lessThan => 4
  | lessEqual => 4
  | greaterThan => 4
  | greaterEqual => 4
  | add => 5
  | subtract => 5
  | multiply => 6
  | divide => 6
  | modulo => 6

namespace Expr

/-- The operator of an operation that stands without parentheses. -/
def operator? : Expr → Option BinaryOperator
  | .binary operator _ _ _ => some operator
  | _ => none

/-- The expression is an operation that stands without parentheses. -/
def isOperation (expr : Expr) : Bool := expr.operator?.isSome

/-- The expression may stand before a dot. -/
def isSelectable : Expr → Bool
  | .binary _ _ _ _ => false
  | .lambda _ _ => false
  | _ => true

/-- The expression may stand to the left of an operator: it is no operation that binds less. -/
def bindsAtLeast (operator : BinaryOperator) (expr : Expr) : Bool :=
  expr.operator?.all fun own => decide (operator.precedence ≤ own.precedence)

end Expr

mutual

/-- The expression has parentheses wherever its source text needs them. -/
@[grind =] def Expr.wellParenthesized : Expr → Bool
  | .literal _ => true
  | .identifier _ _ => true
  | .typeRef _ => true
  | .fieldAccess target _ _ => target.isSelectable && target.wellParenthesized
  | .methodCall (some select) _ arguments _ =>
    select.isSelectable && select.wellParenthesized && Expr.wellParenthesizedList arguments
  | .methodCall none _ arguments _ => Expr.wellParenthesizedList arguments
  | .binary operator left right _ =>
    left.bindsAtLeast operator && !right.isOperation && left.wellParenthesized &&
      right.wellParenthesized
  | .newClass _ arguments => Expr.wellParenthesizedList arguments
  | .newArray _ elements => Expr.wellParenthesizedList elements
  | .classLiteral _ => true
  | .lambda _ body => Statement.wellParenthesizedList body
  | .parens inner => inner.wellParenthesized

/-- All expressions of a list have their parentheses. -/
@[grind =] def Expr.wellParenthesizedList : List Expr → Bool
  | [] => true
  | expr :: rest => expr.wellParenthesized && Expr.wellParenthesizedList rest

/-- All expressions in a statement have their parentheses. -/
@[grind =] def Statement.wellParenthesized : Statement → Bool
  | .expression value => value.wellParenthesized
  | .declaration _ _ (some initial) => initial.wellParenthesized
  | .declaration _ _ none => true
  | .block body => Statement.wellParenthesizedList body
  | .conditional condition thenBranch (some elseBranch) =>
    condition.wellParenthesized && Statement.wellParenthesizedList thenBranch &&
      Statement.wellParenthesizedList elseBranch
  | .conditional condition thenBranch none =>
    condition.wellParenthesized && Statement.wellParenthesizedList thenBranch
  | .guarded body catches (some finallyBlock) =>
    Statement.wellParenthesizedList body && CatchClause.wellParenthesizedList catches &&
      Statement.wellParenthesizedList finallyBlock
  | .guarded body catches none =>
    Statement.wellParenthesizedList body && CatchClause.wellParenthesizedList catches
  | .returning (some value) => value.wellParenthesized
  | .returning none => true

/-- All expressions in a block have their parentheses. -/
@[grind =] def Statement.wellParenthesizedList : List Statement → Bool
  | [] => true
  | statement :: rest => statement.wellParenthesized && Statement.wellParenthesizedList rest

/-- All expressions in handlers have their parentheses. -/
@[grind =] def CatchClause.wellParenthesizedList : List CatchClause → Bool
  | [] => true
  | .handler _ _ body :: rest =>
    Statement.wellParenthesizedList body && CatchClause.wellParenthesizedList rest

end

namespace Expr

theorem wellParenthesizedList_iff {exprs : List Expr} :
    wellParenthesizedList exprs = true ↔ ∀ expr ∈ exprs, expr.wellParenthesized = true := by
  induction exprs with
  | nil => simp [wellParenthesizedList]
  | cons expr rest ih => simp [wellParenthesizedList, ih]

@[simp] theorem wellParenthesized_string (raw : String) :
    (Expr.string raw).wellParenthesized = true := by
  rw [Expr.string, wellParenthesized]

@[simp] theorem wellParenthesized_constant (fqn name : String) :
    (Expr.constant fqn name).wellParenthesized = true := by
  simp [Expr.constant, wellParenthesized, isSelectable]

theorem wellParenthesized_call {select : Expr} {name : String} {arguments : List Expr}
    {method : ResolvedMethod} :
    (Expr.call select name arguments method).wellParenthesized = true ↔
      select.isSelectable = true ∧ select.wellParenthesized = true ∧
        ∀ expr ∈ arguments, expr.wellParenthesized = true := by
  rw [Expr.call, wellParenthesized, Bool.and_eq_true, Bool.and_eq_true, wellParenthesizedList_iff,
    and_assoc]

/-- Two operands may be joined if the first is a sum at most and the second no operation. -/
theorem wellParenthesized_concat {left right : Expr} :
    (Expr.concat left right).wellParenthesized = true ↔
      left.bindsAtLeast .add = true ∧ right.isOperation = false ∧
        left.wellParenthesized = true ∧ right.wellParenthesized = true := by
  rw [Expr.concat, wellParenthesized]
  simp only [Bool.and_eq_true, Bool.not_eq_true', and_assoc]

theorem bindsAtLeast_of_isOperation_eq_false {expr : Expr} (single : expr.isOperation = false)
    (operator : BinaryOperator) : expr.bindsAtLeast operator = true := by
  rw [isOperation, Option.isSome_eq_false_iff, Option.isNone_iff_eq_none] at single
  rw [bindsAtLeast, single]
  rfl

end Expr

/-! ## Messages -/

/-- What may be joined to others: an expression that is no operation and has its parentheses. -/
def Expr.IsOperand (expr : Expr) : Prop := expr.isOperation = false ∧ expr.wellParenthesized = true

theorem Expr.isOperand_string (raw : String) : (Expr.string raw).IsOperand :=
  ⟨rfl, wellParenthesized_string raw⟩

/-- An argument is put in parentheses where it needs them. -/
theorem Expr.isOperand_asOperand {expr : Expr} (formed : expr.wellParenthesized = true) :
    expr.asOperand.IsOperand := by
  cases expr with
  | binary operator left right type =>
    refine ⟨rfl, ?_⟩
    rw [asOperand, wellParenthesized]
    exact formed
  | _ => exact ⟨rfl, formed⟩

namespace Message

variable {message : Message}

/-- Operands are joined from the left, so that no parentheses are needed around what is joined
already. -/
theorem wellParenthesized_foldl_concat {operands : List Expr}
    (each : ∀ expr ∈ operands, expr.IsOperand) {joined : Expr}
    (binds : joined.bindsAtLeast .add = true) (formed : joined.wellParenthesized = true) :
    (operands.foldl Expr.concat joined).wellParenthesized = true := by
  induction operands generalizing joined with
  | nil => exact formed
  | cons operand rest ih =>
    obtain ⟨⟨single, formedOperand⟩, others⟩ := List.forall_mem_cons.mp each
    refine ih others rfl ?_
    exact Expr.wellParenthesized_concat.mpr ⟨binds, single, formed, formedOperand⟩

theorem isOperand_operands (formed : ∀ expr ∈ message.arguments, expr.wellParenthesized = true) :
    ∀ expr ∈ startingWithString message.operands, expr.IsOperand :=
  forall_mem_operands Expr.isOperand_string fun argument member =>
    Expr.isOperand_asOperand (formed argument member)

/-- **A message that is put together has its parentheses.** -/
theorem wellParenthesized_concatenation
    (formed : ∀ expr ∈ message.arguments, expr.wellParenthesized = true) :
    message.concatenation.wellParenthesized = true := by
  unfold concatenation
  split
  · rename_i only sole
    exact formed only ((sole?_eq_some_iff.mp sole).2 ▸ List.mem_cons_self)
  · have each := isOperand_operands formed
    cases joined : startingWithString message.operands with
    | nil => exact Expr.wellParenthesized_string ""
    | cons first rest =>
      obtain ⟨⟨single, formedFirst⟩, others⟩ := List.forall_mem_cons.mp (joined ▸ each)
      exact wellParenthesized_foldl_concat others
        (Expr.bindsAtLeast_of_isOperation_eq_false single .add) formedFirst

/-- What is joined to a string is a string. -/
theorem isString_foldl_concat {joined : Expr} (string : joined.isString = true)
    (operands : List Expr) : (operands.foldl Expr.concat joined).isString = true := by
  induction operands generalizing joined with
  | nil => exact string
  | cons operand rest ih => exact ih rfl

/-- The operands of a message that are not a string together are one operand, or none. -/
theorem isOperation_concatenation
    (formed : ∀ expr ∈ message.arguments, expr.wellParenthesized = true)
    (composed : message.sole? = none) (loose : message.concatenation.isString = false) :
    message.concatenation.isOperation = false := by
  unfold concatenation at loose ⊢
  rw [composed] at loose ⊢
  have each := isOperand_operands formed
  cases joined : startingWithString message.operands with
  | nil => rfl
  | cons first rest =>
    rw [joined] at loose each
    obtain ⟨⟨single, -⟩, -⟩ := List.forall_mem_cons.mp each
    cases rest with
    | nil => exact single
    | cons second others =>
      have string : ((second :: others).foldl Expr.concat first).isString = true :=
        isString_foldl_concat rfl others
      rw [Expr.concatAll, Option.getD_some, string] at loose
      cases loose

/-- The message consists of an operation whose value is not known to be a string. -/
def isLooseOperation (message : Message) : Bool :=
  message.sole?.any fun only => only.isOperation && !only.isString

/-- **A message as one string has its parentheses** unless it is an operation that is put behind an
empty string as it is. -/
theorem wellParenthesized_stringExpr
    (formed : ∀ expr ∈ message.arguments, expr.wellParenthesized = true) :
    message.stringExpr.wellParenthesized = true ↔ message.isLooseOperation = false := by
  have whole := wellParenthesized_concatenation formed
  unfold stringExpr
  split
  · -- A string stands as it is.
    rename_i only string
    obtain ⟨sole, isString⟩ := Option.filter_eq_some_iff.mp string
    have formedOnly := formed only ((sole?_eq_some_iff.mp sole).2 ▸ List.mem_cons_self)
    simp [isLooseOperation, sole, isString, formedOnly]
  · rename_i noString
    split
    · rename_i empty
      rw [List.isEmpty_iff] at empty
      simp [isLooseOperation, sole?, empty, textLiteral]
    · dsimp only
      cases sole : message.sole? with
      | some only =>
        have same : message.concatenation = only := by rw [concatenation, sole]
        have loose : only.isString = false := by
          simpa [soleString?, sole, Option.filter] using noString
        have left : (Expr.string "").bindsAtLeast .add = true := rfl
        rw [same] at whole
        rw [same, loose, if_neg Bool.false_ne_true, Expr.wellParenthesized_concat]
        simp [isLooseOperation, sole, loose, whole, left]
      | none =>
        have settled : message.isLooseOperation = false := by rw [isLooseOperation, sole]; rfl
        refine iff_of_true ?_ settled
        split
        · exact whole
        · rename_i loose
          have single := isOperation_concatenation formed sole (Bool.eq_false_iff.mpr loose)
          exact Expr.wellParenthesized_concat.mpr
            ⟨rfl, single, Expr.wellParenthesized_string "", whole⟩

end Message

/-! ## Calls -/

namespace LogEvent

/-- The message of the event is put behind an empty string although it is an operation: this happens
where an exception is attached to an indexed call. -/
def isLoose (event : LogEvent) (target : Framework) : Bool :=
  target.templateStyle == .indexed && event.message.error.isSome && event.message.isLooseOperation

/-- The arguments of a written call have their parentheses if those of the event have. -/
theorem Written.wellParenthesized {event : LogEvent} {target : Framework} {severity : Severity}
    {name : String} {arguments : List Expr}
    (written : event.Written target severity name arguments)
    (marker : ∀ expr ∈ event.marker.toList, expr.wellParenthesized = true)
    (formed : ∀ expr ∈ event.message.arguments, expr.wellParenthesized = true)
    (error : ∀ expr ∈ event.message.error.toList, expr.wellParenthesized = true) :
    (∀ expr ∈ arguments, expr.wellParenthesized = true) ↔ event.isLoose target = false := by
  have string := Message.wellParenthesized_stringExpr formed
  have wrapped : (Expr.objectArray event.message.arguments).wellParenthesized = true := by
    rw [Expr.objectArray, Expr.wellParenthesized, Expr.wellParenthesizedList_iff]
    exact formed
  cases written with
  | template style =>
    refine iff_of_true ?_ (by simp [isLoose, style])
    exact List.forall_mem_append.mpr ⟨List.forall_mem_append.mpr
      ⟨marker, Message.forall_mem_templateArguments wrapped formed
        Expr.wellParenthesized_string⟩, error⟩
  | joined style =>
    refine iff_of_true ?_ (by simp [isLoose, style])
    exact List.forall_mem_cons.mpr ⟨Message.wellParenthesized_concatenation formed, error⟩
  | attached style levelType constant carriedError carried =>
    have formedError := error carriedError (by simp [carried])
    simp [isLoose, style, carried, string, formedError]
  | whole style alone bare =>
    refine iff_of_true ?_ (by simp [isLoose, alone])
    rw [List.forall_mem_singleton, string, Message.isLooseOperation]
    obtain empty | sole := bare
    · simp [Message.sole?, empty]
    · obtain ⟨only, sole⟩ := Option.isSome_iff_exists.mp sole
      obtain ⟨sole, isString⟩ := Option.filter_eq_some_iff.mp sole
      simp [sole, isString]
  | indexed style levelType constant alone =>
    refine iff_of_true ?_ (by simp [isLoose, alone])
    have parameters : event.message.indexedParameters.wellParenthesized = true :=
      Message.of_indexedParameters wrapped formed
    simp [parameters]

/-- **A written call has its parentheses.** If the logger, the marker, the arguments and the exception
of an event have the parentheses that they need, so has the call that is written for it, just if the
logger may stand before a dot and the message is not an operation that an exception makes part of a
string. -/
theorem wellParenthesized_emit (event : LogEvent) (target : Framework) (policy : SeverityPolicy)
    (receiver : Expr) (logger : receiver.wellParenthesized = true)
    (parts : ∀ expr ∈ event.marker.toList ++ event.message.arguments ++ event.message.error.toList,
      expr.wellParenthesized = true) :
    (event.emit target policy receiver).expr.wellParenthesized = true ↔
      receiver.isSelectable = true ∧ event.isLoose target = false := by
  obtain ⟨name, arguments, same, written⟩ := event.written_emit target policy receiver
  obtain ⟨⟨marker, formed⟩, error⟩ := List.forall_mem_append.mp parts |>.imp_left
    List.forall_mem_append.mp
  rw [same, Expr.wellParenthesized_call, written.wellParenthesized marker formed error]
  exact ⟨fun ⟨selectable, _, tight⟩ => ⟨selectable, tight⟩,
    fun ⟨selectable, tight⟩ => ⟨selectable, logger, tight⟩⟩

/-- A sum between texts is put in parentheses when the message is put together for an exception. -/
theorem wellParenthesized_emit_sum :
    let sum := Expr.binary .add (.ident "a" (.primitive .int)) (.ident "b" (.primitive .int))
      (some (.primitive .int))
    let event : LogEvent := {
      severity := .error
      message := {
        template := "sum \x7b\x7d", arguments := [sum]
        error := some (.ident "e" (.named ClassName.throwable)) } }
    let receiver := Expr.ident "logger" (.named "java.util.logging.Logger")
    receiver.wellParenthesized = true ∧
      (∀ expr ∈ event.marker.toList ++ event.message.arguments ++ event.message.error.toList,
        expr.wellParenthesized = true) ∧
      receiver.isSelectable = true ∧ event.isLoose .jul = false ∧
      (event.emit .jul {} receiver).expr.wellParenthesized = true := by
  intro sum event receiver
  have parts : ∀ expr ∈ event.marker.toList ++ event.message.arguments ++
      event.message.error.toList, expr.wellParenthesized = true := by
    simp [event, sum, Expr.wellParenthesized, Expr.ident, Expr.bindsAtLeast, Expr.operator?,
      Expr.isOperation]
  have tight : event.isLoose .jul = false := by decide
  exact ⟨rfl, parts, rfl, tight,
    (wellParenthesized_emit event .jul {} receiver rfl parts).mpr ⟨rfl, tight⟩⟩

/-- A sum that is the whole message is put behind an empty string without parentheses, although the
sum and all else that the call is made of has the parentheses that it needs: `"" + a + b` is not the
text of the sum. -/
theorem not_wellParenthesized_emit_sum :
    let sum := Expr.binary .add (.ident "a" (.primitive .int)) (.ident "b" (.primitive .int))
      (some (.primitive .int))
    let error := Expr.ident "e" (.named ClassName.throwable)
    let event : LogEvent := {
      severity := .error
      message := { template := "\x7b\x7d", arguments := [sum], error := some error } }
    let receiver := Expr.ident "logger" (.named "java.util.logging.Logger")
    receiver.wellParenthesized = true ∧ sum.wellParenthesized = true ∧
      error.wellParenthesized = true ∧
      (event.emit .jul {} receiver).expr =
        .call receiver "log"
          [.constant "java.util.logging.Level" "SEVERE", .concat (.string "") sum, error]
          (.onInstance "java.util.logging.Logger" "log") ∧
      (event.emit .jul {} receiver).expr.wellParenthesized = false := by
  decide

end LogEvent

end LogCalls
