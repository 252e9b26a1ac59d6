import LogCalls.Proofs.Message.Arguments
import LogCalls.Proofs.Message.Balance

/-! # The text of a message

What an operand prints and what its message prints are the same, whatever the values in them print.
A valuation gives the text of every value; string literals stand for themselves, a concatenation
prints its operands one after the other, and parentheses print nothing. -/

namespace LogCalls

/-! ## Expressions -/

/-- The text of an expression, when `value` gives the text of everything that is neither a string
literal nor put together from other expressions. -/
def Expr.textWith (value : Expr → String) : Expr → String
  | .literal (.string raw) => raw
  | .binary .add left right (some type) =>
    if type.isString then left.textWith value ++ right.textWith value
    else value (.binary .add left right (some type))
  | .parens inner => inner.textWith value
  | expr => value expr

namespace Segment

variable (value : Expr → String)

/-- The text of a segment. -/
def textWith : Segment → String
  | .text raw => raw
  | .argument expr => expr.textWith value

/-- The text of segments one after the other. -/
def joinWith (segments : List Segment) : String := String.join (segments.map (textWith value))

@[simp] theorem joinWith_nil : joinWith value [] = "" := rfl

@[simp] theorem joinWith_cons (segment : Segment) (rest : List Segment) :
    joinWith value (segment :: rest) = segment.textWith value ++ joinWith value rest := by
  rw [joinWith, List.map_cons, String.join_cons, joinWith]

@[simp] theorem joinWith_append (front back : List Segment) :
    joinWith value (front ++ back) = joinWith value front ++ joinWith value back := by
  induction front with
  | nil => simp
  | cons segment rest ih =>
    rw [List.cons_append, joinWith_cons, ih, joinWith_cons, String.append_assoc]

/-- Putting neighbouring texts together keeps the text. -/
theorem joinWith_merge (segments : List Segment) :
    joinWith value (merge segments) = joinWith value segments := by
  induction segments with
  | nil => rfl
  | cons segment rest ih =>
    cases segment with
    | argument expr => rw [merge, joinWith_cons, joinWith_cons, ih]
    | text raw =>
      rw [merge, joinWith_cons]
      split
      · rename_i empty
        rw [ih, textWith, empty, String.empty_append]
      · split
        · rename_i next others merged
          rw [merged, joinWith_cons] at ih
          rw [joinWith_cons, ← ih, textWith, textWith, textWith,
            String.append_assoc]
        · rw [joinWith_cons, ih]

end Segment

namespace Expr

variable (value : Expr → String)

/-- The operands of a concatenation print what it prints. `whole` is the expression with the
parentheses around it, which print nothing. -/
theorem textWith_leaves (whole expr : Expr) (same : whole.textWith value = expr.textWith value) :
    Segment.joinWith value (leaves whole expr) = expr.textWith value := by
  fun_induction leaves whole expr with
  | case1 whole inner ih =>
    rw [textWith] at same ⊢
    exact ih same
  | case2 whole raw => simp [Segment.textWith, textWith]
  | case3 whole left right type string leftHypothesis rightHypothesis =>
    rw [Segment.joinWith_append, leftHypothesis rfl, rightHypothesis rfl, textWith, if_pos string]
  | case4 whole left right type other => simp [Segment.textWith, same]
  | case5 whole expr notParens notLiteral notSum => simp [Segment.textWith, same]

/-- The segments of an expression print what it prints. -/
theorem textWith_segments (expr : Expr) :
    Segment.joinWith value expr.segments = expr.textWith value := by
  rw [segments, Segment.joinWith_merge, textWith_leaves value expr expr rfl]

end Expr

/-! ## Pieces and arguments -/

/-- Pieces with the texts of values between them. -/
def interleave : (pieces shown : List String) → String
  | [], _ => ""
  | piece :: rest, [] => piece ++ interleave rest []
  | piece :: rest, text :: shown => piece ++ text ++ interleave rest shown

/-- Text in front of the first piece is in front of everything. -/
theorem interleave_append_head (text piece : String) (rest shown : List String) :
    interleave ((text ++ piece) :: rest) shown = text ++ interleave (piece :: rest) shown := by
  cases shown with
  | nil => rw [interleave, interleave, String.append_assoc]
  | cons next shown => rw [interleave, interleave, String.append_assoc, String.append_assoc,
      String.append_assoc]

/-- The texts around the arguments, with the arguments between them, are the segments. -/
theorem Segment.interleave_texts (value : Expr → String) (segments : List Segment) :
    interleave (texts segments) ((arguments segments).map (·.textWith value)) =
      joinWith value segments := by
  induction segments with
  | nil => rfl
  | cons segment rest ih =>
    cases segment with
    | text raw =>
      rw [texts, arguments_text, joinWith_cons, ← ih, textWith]
      cases found : texts rest with
      | nil =>
        have length := length_texts rest
        rw [found] at length
        cases length
      | cons first others => exact interleave_append_head raw first others _
    | argument expr =>
      rw [texts, arguments_argument, List.map_cons, interleave, ih,
        joinWith_cons, textWith, String.empty_append]

namespace Message

variable (value : Expr → String)

/-- The text of a message: its pieces with the texts of its arguments between them. -/
def textWith (message : Message) : String :=
  interleave message.pieces (message.arguments.map (·.textWith value))

/-- The attached exception, if it was taken out of the operand and not given after it. -/
def movedError (trailing : List Expr) (message : Message) : Option Expr :=
  if trailing.isEmpty then message.error else none

/-- An attached exception that was given was not taken out of the operand. -/
theorem movedError_of_given {trailing : List Expr} {message : Message}
    (given : trailing = message.error.toList) : movedError trailing message = none := by
  rw [movedError, given]
  cases message.error <;> rfl

/-- The text of an expression that may be missing. -/
def optionalText (expr : Option Expr) : String := (expr.map (·.textWith value)).getD ""

/-- The message of separated segments prints what they print. -/
theorem textWith_template {segments : List Segment} (separated : Segment.Separated segments)
    (representable : Segment.representable segments = true) (error : Option Expr) :
    textWith value { template := Segment.template segments
                     arguments := Segment.arguments segments
                     error } = Segment.joinWith value segments := by
  rw [textWith, pieces, Segment.pieces_template separated representable,
    Segment.interleave_texts]

/-- **Reading a message keeps its text.** An operand that is not a literal, in parentheses or without
them, prints what the message read from it prints, followed by the exception that was taken off its
end. An exception that is given after the operand is attached and has no part in the text. -/
theorem textWith_extract? (style : TemplateStyle) (operand : Expr) (trailing : List Expr)
    (found : Extracted) (other : ∀ raw, operand.bare ≠ .string raw)
    (read : extract? style false operand trailing = some found) :
    found.message.textWith value ++ optionalText value (found.message.movedError trailing) =
        operand.textWith value ∧
      (trailing ≠ [] → found.message.error.toList = trailing) := by
  obtain ⟨raw, literal, -⟩ | ⟨-, readable, explicit, only, same⟩ := extract?_cases read
  · exact absurd (Expr.stringLiteral?_eq_some_iff.mp literal) (other raw)
  · have given := onlyError?_eq_some only
    have separated := operand.separated_segments
    have representable := representable_of_readable readable
    obtain ⟨kept, error, origin, made⟩ := ofSegments_cases
      { explicitError := explicit, collapseAccessors := false } operand.segments
    rw [same, made, shown_false]
    obtain ⟨rfl, rfl⟩ | ⟨rfl, expr, -, whole, rfl⟩ := origin
    · -- Nothing was taken off: an exception, if there is one, was given.
      refine ⟨?_, fun _ => given.symm⟩
      rw [textWith_template value separated representable, Expr.textWith_segments,
        movedError_of_given]
      · exact String.append_empty
      · exact given
    · rw [whole] at separated representable
      refine ⟨?_, fun more => absurd given more⟩
      rw [textWith_template value separated.of_append
        (Segment.representable_append.mp representable).1, given]
      have text := Expr.textWith_segments value operand
      rw [whole, Segment.joinWith_append, Segment.joinWith_cons, Segment.joinWith_nil,
        String.append_empty] at text
      exact text

/-- Two literals that form braces together, a value in parentheses and an exception at the end. -/
theorem textWith_extract?_braces :
    let count := Expr.parens (.ident "n" (.primitive .int))
    let error := Expr.ident "e" (.named ClassName.throwable)
    let operand := Expr.concat
      (.concat (.string "a\x7b") (.parens (.concat (.string "\x7db ") count))) error
    let found : Extracted :=
      { message := { template := "a\\\\\x7b\x7db \x7b\x7d", arguments := [count], error := some error }
        isCanonical := false }
    let value : Expr → String := fun
      | .identifier name _ => "<" ++ name ++ ">"
      | _ => ""
    extract? .anonymous false operand [] = some found ∧
      operand.textWith value = "a\x7b\x7db <n><e>" ∧ found.message.textWith value = "a\x7b\x7db <n>" ∧
      found.message.textWith value ++ optionalText value (found.message.movedError []) =
        operand.textWith value := by
  intro count error operand found value
  have read : extract? .anonymous false operand [] = some found := by decide
  refine ⟨read, by decide, by decide, ?_⟩
  refine (textWith_extract? value .anonymous operand [] found ?_ read).1
  intro raw literal
  cases literal

end Message

end LogCalls
