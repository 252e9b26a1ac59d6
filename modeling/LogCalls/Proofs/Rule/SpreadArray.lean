import LogCalls.Proofs.Rule.Replacement

/-! # Which parameters a call passes

A call that takes a template passes the arguments after its message as parameters. If there is only one
of them and it is an array of given elements, these are the parameters. Spreading an array keeps the
parameters if the array is that one argument. Beside others it is itself a parameter, for which its
elements are no substitute. -/

namespace LogCalls

namespace Expr

/-- The parameters that the arguments after a message stand for. -/
def parametersOf : List Expr → List Expr
  | [.newArray _ elements] => elements
  | arguments => arguments

/-- The parameters that a call passes to its template. -/
def parameters (expr : Expr) : List Expr := parametersOf expr.messageArguments.tail

/-- Arguments are the parameters, unless they are one array. -/
theorem parametersOf_cases (arguments : List Expr) :
    (∃ element elements, arguments = [.newArray element elements] ∧
      parametersOf arguments = elements) ∨ parametersOf arguments = arguments := by
  unfold parametersOf
  split
  · exact .inl ⟨_, _, rfl, rfl⟩
  · exact .inr rfl

/-- Two arguments or more are the parameters. -/
theorem parametersOf_concat {arguments : List Expr} (others : arguments ≠ []) (last : Expr) :
    parametersOf (arguments ++ [last]) = arguments ++ [last] := by
  obtain ⟨element, elements, alone, -⟩ | same := parametersOf_cases (arguments ++ [last])
  · have length := congrArg List.length alone
    rw [List.length_append, List.length_singleton, List.length_singleton] at length
    exact absurd (List.length_eq_zero_iff.mp (by omega)) others
  · exact same

theorem newArray_not_mem (element : JavaType) (elements : List Expr) :
    newArray element elements ∉ elements := by
  intro member
  have smaller := List.sizeOf_lt_of_mem member
  simp only [newArray.sizeOf_spec] at smaller
  omega

end Expr

namespace SpreadArray

/-- An array that is spread does not hold a single array. -/
theorem mayBeSpread_of_replace? {expr : Expr} {replacement : Replacement} {shown elements : List Expr}
    {element : JavaType} (made : replace? expr = some replacement)
    (arguments : expr.messageArguments = shown ++ [.newArray element elements]) :
    ConstantMessage.mayBeSpread elements = false := by
  obtain ⟨select, name, leading, found, inside, method, index, rfl, -, stands, behind, kept, -⟩ :=
    replace?_cases made
  -- The array after the message is the one that is spread.
  rw [Expr.messageArguments, stands] at arguments
  have last := congrArg List.getLast? arguments
  dsimp only at last
  rw [List.drop_append_of_le_length (Nat.le_of_lt behind), List.getLast?_concat,
    List.getLast?_concat] at last
  cases last
  exact kept

/-- A single array would be spread in turn. -/
theorem mayBeSpread_newArray (element : JavaType) (elements : List Expr) :
    ConstantMessage.mayBeSpread [.newArray element elements] = true := rfl

/-- Elements that are not a single array are the parameters when they are spread. -/
theorem parametersOf_of_mayBeSpread {elements : List Expr}
    (kept : ConstantMessage.mayBeSpread elements = false) : Expr.parametersOf elements = elements := by
  obtain ⟨element, inner, rfl, -⟩ | same := Expr.parametersOf_cases elements
  · rw [mayBeSpread_newArray] at kept
    cases kept
  · exact same

/-- Beside other arguments, an array is not what its elements are. -/
theorem parametersOf_ne_of_beside {beside : List Expr} (others : beside ≠ []) (element : JavaType)
    (elements : List Expr) :
    Expr.parametersOf (beside ++ elements) ≠ beside ++ [.newArray element elements] := by
  intro same
  obtain ⟨inner, spread, alone, shown⟩ | shown := Expr.parametersOf_cases (beside ++ elements)
  · -- What is left is a single array, which would have to hold itself.
    obtain ⟨empty, -⟩ | ⟨only, -⟩ := List.append_eq_singleton_iff.mp alone
    · exact others empty
    · have member : Expr.newArray inner spread ∈ beside ++ [.newArray element elements] := by
        rw [only]
        exact List.mem_append_left _ List.mem_cons_self
      exact Expr.newArray_not_mem inner spread (by rwa [← same, shown] at member)
  · rw [shown] at same
    have member : Expr.newArray element elements ∈ [Expr.newArray element elements] :=
      List.mem_cons_self
    exact Expr.newArray_not_mem element elements (by rwa [← List.append_cancel_left same] at member)

/-- **Only an array that stands alone may be spread.** The rule puts the elements of the last array in
its place. The call passes the same parameters as before exactly if nothing stands between the message
and the array. -/
theorem parameters_replace (expr : Expr) (scope : Scope) (replacement : Replacement)
    (made : rule.onExpr expr scope = .ok (some replacement)) :
    ∃ message beside element elements,
      expr.messageArguments = message :: (beside ++ [.newArray element elements]) ∧
      replacement.expr.messageArguments = message :: (beside ++ elements) ∧
      (replacement.expr.parameters = expr.parameters ↔ beside = []) := by
  have made : replace? expr = some replacement := Except.ok.inj made
  obtain ⟨shown, element, elements, nonempty, before, after⟩ := messageArguments_replace made
  cases shown with
  | nil => exact absurd rfl nonempty
  | cons message beside =>
    refine ⟨message, beside, element, elements, before, after, ?_⟩
    rw [Expr.parameters, Expr.parameters, before, after]
    constructor
    · intro kept
      cases beside with
      | nil => rfl
      | cons other rest =>
        have others : other :: rest ≠ [] := List.cons_ne_nil other rest
        have whole := Expr.parametersOf_concat others (.newArray element elements)
        exact (parametersOf_ne_of_beside others element elements (kept.trans whole)).elim
    · rintro rfl
      exact parametersOf_of_mayBeSpread (mayBeSpread_of_replace? made before)

/-- The array after a marker and a message is spread, and the parameters are its elements as before. -/
theorem parameters_replace_marked :
    let logger := Expr.ident "logger" (.named "org.apache.logging.log4j.Logger")
    let level := Expr.constant "org.apache.logging.log4j.Level" "INFO"
    let marker := Expr.ident "audit" (.named "org.apache.logging.log4j.Marker")
    let first := Expr.ident "a" .string
    let second := Expr.ident "b" (.array .string)
    let call (parameters : List Expr) := Expr.call logger "log"
      ([level, marker, .string "\x7b\x7d of \x7b\x7d"] ++ parameters)
      (.onInstance "org.apache.logging.log4j.Logger" "log")
    let replacement : Replacement := { expr := call [first, second] }
    rule.onExpr (call [.objectArray [first, second]]) {} = .ok (some replacement) ∧
      ∃ message beside element elements,
        (call [.objectArray [first, second]]).messageArguments =
          message :: (beside ++ [.newArray element elements]) ∧
        replacement.expr.messageArguments = message :: (beside ++ elements) ∧
        (replacement.expr.parameters = (call [.objectArray [first, second]]).parameters ↔
          beside = []) := by
  intro logger level marker first second call replacement
  have made : rule.onExpr (call [.objectArray [first, second]]) {} = .ok (some replacement) :=
    congrArg Except.ok (by decide)
  exact ⟨made, parameters_replace _ _ _ made⟩

/-- An array that is the second of two parameters is spread into two others. -/
theorem parameters_replace_beside :
    let logger := Expr.ident "logger" (.named "org.slf4j.Logger")
    let first := Expr.ident "a" .string
    let second := Expr.ident "b" .string
    let third := Expr.ident "c" .string
    let call (parameters : List Expr) := Expr.call logger "info"
      (.string "\x7b\x7d and \x7b\x7d" :: parameters) (.onInstance "org.slf4j.Logger" "info")
    let before := call [first, .objectArray [second, third]]
    let replacement : Replacement := { expr := call [first, second, third] }
    rule.applies before {} = true ∧ rule.onExpr before {} = .ok (some replacement) ∧
      replacement.expr.parameters ≠ before.parameters := by
  intro logger first second third call before replacement
  exact ⟨by decide, congrArg Except.ok (by decide), by decide⟩

end SpreadArray

end LogCalls
