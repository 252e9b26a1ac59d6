import LogCalls.Proofs.Emission.ReadBack
import LogCalls.Proofs.Message.Text

/-! # The text of a concatenation

A message that is written as a concatenation prints what it prints as a template. Each sum in it adds to
a string, so that no two numbers are ever added up: where the first operand is no string, an empty one
goes in front, and what has been joined already is a string from then on. -/

namespace LogCalls

variable {operands : List Expr}

/-! ## Joined operands -/

namespace Expr

/-- The expression joins the operands from left to right. Each sum that it takes has a string on its
left. -/
inductive Joins : List Expr → Expr → Prop where
  | single (operand : Expr) : Joins [operand] operand
  | sum {operands : List Expr} {left : Expr} (right : Expr) :
      Joins operands left → left.isString = true → Joins (operands ++ [right]) (.concat left right)

variable (value : Expr → String)

@[simp] theorem textWith_string (raw : String) : (Expr.string raw).textWith value = raw := rfl

@[simp] theorem textWith_concat (left right : Expr) :
    (Expr.concat left right).textWith value = left.textWith value ++ right.textWith value := rfl

/-- Parentheses around an argument print nothing. -/
@[simp] theorem textWith_asOperand (argument : Expr) :
    argument.asOperand.textWith value = argument.textWith value := by
  cases argument with
  | binary operator left right type => rw [asOperand, textWith]
  | _ => rfl

/-- What joins operands prints them one after the other. -/
theorem Joins.textWith {joined : Expr} (joins : Joins operands joined) :
    joined.textWith value = String.join (operands.map (Expr.textWith value)) := by
  induction joins with
  | single operand => simp
  | sum right _ _ ih => simp [ih]

/-- More operands are joined to a string. -/
theorem Joins.foldl_concat {joined : Expr} (joins : Joins operands joined)
    (string : joined.isString = true) (more : List Expr) :
    Joins (operands ++ more) (more.foldl concat joined) := by
  induction more generalizing operands joined with
  | nil =>
    rw [List.append_nil]
    exact joins
  | cons operand rest ih =>
    -- A sum is a string itself, whatever has been added.
    have next := ih (joins.sum operand string) rfl
    rwa [List.append_assoc, List.singleton_append] at next

end Expr

/-! ## Operands of a message -/

namespace Message

variable {message : Message}

section Operands

variable {holds : Expr → Prop} (text : ∀ raw, holds (.string raw))

include text

theorem forall_mem_textOperand (piece : String) : ∀ operand ∈ textOperand piece, holds operand := by
  unfold textOperand
  split
  · exact List.forall_mem_nil _
  · exact List.forall_mem_singleton.mpr (text piece)

theorem forall_mem_operandsFrom {pieces : List String} {arguments : List Expr}
    (each : ∀ argument ∈ arguments, holds argument.asOperand) :
    ∀ operand ∈ operandsFrom pieces arguments, holds operand := by
  fun_induction operandsFrom pieces arguments with
  | case1 => exact List.forall_mem_nil _
  | case2 piece rest ih =>
    exact List.forall_mem_append.mpr ⟨forall_mem_textOperand text piece, ih each⟩
  | case3 piece rest argument arguments ih =>
    obtain ⟨first, others⟩ := List.forall_mem_cons.mp each
    exact List.forall_mem_append.mpr
      ⟨List.forall_mem_cons.mpr ⟨first, forall_mem_textOperand text piece⟩,
        ih others⟩

/-- What is true of texts and of arguments in their parentheses is true of everything that is joined. -/
theorem forall_mem_operands (each : ∀ argument ∈ message.arguments, holds argument.asOperand) :
    ∀ operand ∈ startingWithString message.operands, holds operand := by
  have operands : ∀ operand ∈ message.operands, holds operand := by
    unfold operands
    split
    · exact List.forall_mem_nil _
    · exact List.forall_mem_append.mpr
        ⟨forall_mem_textOperand text _, forall_mem_operandsFrom text each⟩
  unfold startingWithString
  split
  · rename_i same
    rw [same] at operands
    split
    · exact operands
    · exact List.forall_mem_cons.mpr ⟨text "", operands⟩
  · exact operands

end Operands

/-- The message has the operand for a concatenation: a text, or an argument, in parentheses or not. -/
def Supplies (message : Message) (operand : Expr) : Prop :=
  (∃ raw, operand = .string raw) ∨
    ∃ argument ∈ message.arguments, operand = argument ∨ operand = .parens argument

theorem supplies_asOperand {argument : Expr}
    (member : argument ∈ message.arguments) : message.Supplies argument.asOperand := by
  refine .inr ⟨argument, member, ?_⟩
  cases argument with
  | binary operator left right type => exact .inr rfl
  | _ => exact .inl rfl

/-- An operand is no operation, as arguments with operators of their own are put in parentheses. -/
theorem asOperand_ne_binary (argument : Expr) (operator : BinaryOperator) (left right : Expr)
    (type : Option JavaType) : argument.asOperand ≠ .binary operator left right type := by
  cases argument <;> exact nofun

/-- Operands are joined to strings, once they start with one. -/
theorem joins_startingWithString {first : Expr} {rest : List Expr}
    (started : startingWithString operands = first :: rest) :
    Expr.Joins (first :: rest) (rest.foldl Expr.concat first) := by
  have string : first.isString = true ∨ rest = [] := by
    unfold startingWithString at started
    split at started
    · split at started
      · rename_i string
        cases started
        exact .inl string
      · cases started
        exact .inl rfl
    · -- There is one operand at most, and nothing to join.
      rename_i single
      cases rest with
      | nil => exact .inr rfl
      | cons second others => exact absurd started (single first second others)
  obtain string | rfl := string
  · exact (Expr.Joins.single first).foldl_concat string rest
  · exact .single first

section Text

variable (value : Expr → String)

theorem join_textOperand (piece : String) :
    String.join ((textOperand piece).map (Expr.textWith value)) = piece := by
  unfold textOperand
  split
  · rename_i empty
    rw [empty]
    rfl
  · simp

/-- The empty string in front of operands prints nothing. -/
theorem join_startingWithString (operands : List Expr) :
    String.join ((startingWithString operands).map (Expr.textWith value)) =
      String.join (operands.map (Expr.textWith value)) := by
  fun_cases startingWithString operands with
  | case1 => rfl
  | case2 first second rest other =>
    rw [List.map_cons, String.join_cons, Expr.textWith_string, String.empty_append]
  | case3 => rfl

/-- Arguments and the pieces after them print what they print in a template. -/
theorem join_operandsFrom {pieces : List String} {arguments : List Expr}
    (balanced : pieces.length = arguments.length) :
    String.join ((operandsFrom pieces arguments).map (Expr.textWith value)) =
      interleave ("" :: pieces) (arguments.map (Expr.textWith value)) := by
  induction pieces generalizing arguments with
  | nil =>
    rw [List.eq_nil_of_length_eq_zero balanced.symm]
    rfl
  | cons piece rest ih =>
    cases arguments with
    | nil => cases balanced
    | cons argument arguments =>
      have others := ih (Nat.succ.inj balanced)
      have piecesJoined := interleave_append_head piece "" rest (arguments.map (Expr.textWith value))
      rw [String.append_empty, ← others] at piecesJoined
      rw [List.map_cons, interleave, piecesJoined, operandsFrom, List.cons_append, List.map_cons,
        List.map_append, String.join_cons, String.join_append, join_textOperand,
        Expr.textWith_asOperand, String.empty_append]

/-- The operands of a message print what the message prints. -/
theorem join_operands (balanced : message.Balanced) :
    String.join (message.operands.map (Expr.textWith value)) = message.textWith value := by
  have length := balanced.length_pieces
  rw [textWith, operands]
  cases cut : message.pieces with
  | nil =>
    rw [cut] at length
    cases length
  | cons first rest =>
    rw [cut, List.length_cons] at length
    have joined := interleave_append_head first "" rest (message.arguments.map (Expr.textWith value))
    rw [String.append_empty] at joined
    rw [List.map_append, String.join_append, join_textOperand, joined,
      join_operandsFrom value (Nat.succ.inj length)]

end Text

/-- A message that does not consist of one expression is written as the operands that it supplies, each
joined to a string. None of them is an operation itself. -/
theorem exists_joins_concatenation (composed : message.sole? = none) :
    ∃ operands, Expr.Joins operands message.concatenation ∧
      (∀ value, String.join (operands.map (Expr.textWith value)) =
        String.join (message.operands.map (Expr.textWith value))) ∧
      ∀ operand ∈ operands, message.Supplies operand ∧
        ∀ operator left right type, operand ≠ .binary operator left right type := by
  have text (value : Expr → String) := join_startingWithString value message.operands
  have supplied : ∀ operand ∈ startingWithString message.operands, message.Supplies operand ∧
      ∀ operator left right type, operand ≠ .binary operator left right type :=
    forall_mem_operands (fun raw => ⟨.inl ⟨raw, rfl⟩, fun _ _ _ _ => nofun⟩)
      fun argument member => ⟨supplies_asOperand member, asOperand_ne_binary argument⟩
  rw [concatenation, composed]
  cases started : startingWithString message.operands with
  | nil =>
    -- A message without operands is written as the empty text.
    refine ⟨[.string ""], .single _, fun value => ?_, ?_⟩
    · rw [← text, started]
      rfl
    · exact List.forall_mem_singleton.mpr ⟨.inl ⟨"", rfl⟩, fun _ _ _ _ => nofun⟩
  | cons first rest =>
    rw [started] at text supplied
    exact ⟨first :: rest, joins_startingWithString started, text, supplied⟩

/-- **A message that is written as a concatenation keeps its text, and really concatenates.** The
concatenation of a message with one placeholder for each argument prints the pieces of the message with
its arguments between them, whatever the values in them print. It joins texts and arguments, each to an
expression that is known to be a string, unless it is just one of them; and where there are several, none
of them is an operation itself, so that these sums are all that there are around the operands. -/
theorem textWith_concatenation (message : Message)
    (balanced : Template.placeholderCount message.template = message.arguments.length) :
    (∀ value, message.concatenation.textWith value =
        interleave message.pieces (message.arguments.map (Expr.textWith value))) ∧
      ∃ operands, Expr.Joins operands message.concatenation ∧
        (∀ operand ∈ operands, message.Supplies operand) ∧
        (operands.length = 1 ∨ ∀ operand ∈ operands,
          ∀ operator left right type, operand ≠ .binary operator left right type) := by
  cases sole : message.sole? with
  | some only =>
    obtain ⟨bare, taken⟩ := sole?_eq_some_iff.mp sole
    have same : message.concatenation = only := by rw [concatenation, sole]
    have cut : message.pieces = ["", ""] := by
      rw [pieces, bare]
      decide
    rw [same, cut, taken]
    refine ⟨fun value => by simp [interleave], [only], .single only, ?_, .inl rfl⟩
    exact List.forall_mem_singleton.mpr (.inr ⟨only, taken ▸ List.mem_cons_self, .inl rfl⟩)
  | none =>
    obtain ⟨operands, joins, text, each⟩ := exists_joins_concatenation sole
    refine ⟨fun value => ?_, operands, joins, fun operand member => (each operand member).1,
      .inr fun operand member => (each operand member).2⟩
    rw [joins.textWith, text, join_operands value balanced, textWith]

/-- Two numbers in front of the first text, and a sum of numbers, which keeps its parentheses. -/
theorem textWith_concatenation_numbers : let count := Expr.ident "n" (.primitive .int)
    let sum := Expr.binary .add count count (some (.primitive .int))
    let message : Message := { template := "\x7b\x7d\x7b\x7d items", arguments := [count, sum] }
    let value : Expr → String := fun
      | .identifier name _ => "<" ++ name ++ ">"
      | _ => "<sum>"
    Template.placeholderCount message.template = message.arguments.length ∧
      message.concatenation =
        .concat (.concat (.concat (.string "") count) (.parens sum)) (.string " items") ∧
      interleave message.pieces (message.arguments.map (Expr.textWith value)) = "<n><sum> items" ∧
      message.concatenation.textWith value =
        interleave message.pieces (message.arguments.map (Expr.textWith value)) ∧
      ∃ operands, Expr.Joins operands message.concatenation ∧
        (∀ operand ∈ operands, message.Supplies operand) ∧
        (operands.length = 1 ∨ ∀ operand ∈ operands,
          ∀ operator left right type, operand ≠ .binary operator left right type) := by
  intro count sum message value
  have balanced : Template.placeholderCount message.template = message.arguments.length := by decide
  obtain ⟨text, joins⟩ := textWith_concatenation message balanced
  exact ⟨balanced, by decide, by decide, text value, joins⟩

end Message

end LogCalls
