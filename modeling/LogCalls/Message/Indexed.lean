import LogCalls.Message.Basic
import LogCalls.Text.Numeral

/-! # Indexed patterns

Patterns in the manner of `MessageFormat`: `{0}`, `{1}`, … stand for parameters by number, and
apostrophes quote. Two apostrophes are one apostrophe anywhere; a single one starts or ends a quoted
stretch, in which braces are text. -/

namespace LogCalls

namespace Indexed

/-- One element of a pattern. -/
inductive Item where
  /-- A character that is printed. -/
  | char (value : Char)
  /-- The parameter with this number. -/
  | reference (index : Nat)
  deriving DecidableEq, Repr

/-- Where a reader stands in a pattern. -/
inductive Mode where
  /-- Outside quotes. -/
  | plain
  /-- Inside quotes. -/
  | quoted
  /-- After an opening brace and these digits. -/
  | index (digits : List Char)

/-- Read a pattern. A brace that is not quoted has to start a reference. -/
@[grind =] def itemsFrom : Mode → List Char → Option (List Item)
  | .index _, [] => none
  | _, [] => some []
  | .index digits, c :: rest =>
    if Text.isDecimalDigit c then itemsFrom (.index (digits ++ [c])) rest
    else if c = '}' && !digits.isEmpty then do
      let index ← Text.decimal? digits
      let items ← itemsFrom .plain rest
      return .reference index :: items
    else none
  | mode, '\'' :: '\'' :: rest => (itemsFrom mode rest).map (.char '\'' :: ·)
  | .plain, '\'' :: rest => itemsFrom .quoted rest
  | .quoted, '\'' :: rest => itemsFrom .plain rest
  | .plain, '{' :: rest => itemsFrom (.index []) rest
  | mode, c :: rest => (itemsFrom mode rest).map (.char c :: ·)

/-- The elements of a pattern, if it can be read. -/
def items? (pattern : String) : Option (List Item) := itemsFrom .plain pattern.toList

/-- The parameters that are referred to, in order. -/
def references (items : List Item) : List Nat :=
  items.filterMap fun
    | .char _ => none
    | .reference index => some index

/-- The segments that the elements of a pattern make, with characters gathered into texts. -/
def segments? (parameters : List Expr) : List Item → Option (List Segment)
  | [] => some []
  | .char c :: rest => do
      match ← segments? parameters rest with
      | .text raw :: others => return .text (String.ofList (c :: raw.toList)) :: others
      | found => return .text (String.ofList [c]) :: found
  | .reference index :: rest => do
      let parameter ← parameters[index]?
      let found ← segments? parameters rest
      return .argument parameter :: found

end Indexed

/-- Evaluating the expression twice, or out of order, makes no difference. -/
def Expr.isPure : Expr → Bool
  | .literal _ => true
  | .identifier _ _ => true
  | .classLiteral _ => true
  | .typeRef _ => true
  | .fieldAccess target _ _ => target.isPure
  | .parens inner => inner.isPure
  | _ => false

namespace Indexed

/-- A pattern with its parameters as a message. Arguments follow their placeholders, so parameters
that are repeated or out of order have to be pure. Parameters that are never referred to are a
reason to give up, since they would be lost. -/
def message? (pattern : String) (parameters : List Expr) : Option Message := do
  let items ← items? pattern
  let segments ← segments? parameters items
  let order := references items
  let numbers := List.range parameters.length
  if !numbers.all order.contains then none
  else if order != numbers && !parameters.all Expr.isPure then none
  else if !Segment.representable segments then none
  else some { template := Segment.template segments, arguments := Segment.arguments segments }

/-- A character of text as spelled in a pattern. -/
def escapeChar (c : Char) : List Char :=
  if c = '\'' then ['\'', '\'']
  else if c = '{' then ['\'', '{', '\'']
  else [c]

/-- A text as spelled in a pattern. -/
def escape (text : String) : List Char := text.toList.flatMap escapeChar

/-- A reference to a parameter, as spelled in a pattern. -/
def spelling (index : Nat) : List Char := '{' :: Nat.toDigits 10 index ++ ['}']

/-- Pieces with references between them, counting from `index`. -/
def write (index : Nat) : List String → List Char
  | [] => []
  | piece :: rest => spelling index ++ escape piece ++ write (index + 1) rest

end Indexed

/-- The template of the message as a pattern that refers to its arguments by number. -/
def Message.indexed (message : Message) : String :=
  match message.pieces with
  | [] => ""
  | first :: rest => String.ofList (Indexed.escape first ++ Indexed.write 0 rest)

end LogCalls
