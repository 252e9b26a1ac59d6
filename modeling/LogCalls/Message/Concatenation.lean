import LogCalls.Message.Basic

/-! # Messages as concatenations

A message written back as an expression that puts its text together, for frameworks that know no
templates. -/

namespace LogCalls

/-- An argument as operand of a concatenation; one that has operators of its own is put in
parentheses. -/
def Expr.asOperand : Expr → Expr
  | .binary operator left right type => .parens (.binary operator left right type)
  | other => other

namespace Message

/-- A piece of text as operand, if there is any text in it. -/
def textOperand (piece : String) : List Expr := if piece = "" then [] else [.string piece]

/-- Arguments and the pieces that follow them, as operands. -/
def operandsFrom : List String → List Expr → List Expr
  | [], _ => []
  | piece :: rest, [] => textOperand piece ++ operandsFrom rest []
  | piece :: rest, argument :: arguments =>
    argument.asOperand :: textOperand piece ++ operandsFrom rest arguments

/-- The operands of the message from left to right. -/
def operands (message : Message) : List Expr :=
  match message.pieces with
  | [] => []
  | first :: rest => textOperand first ++ operandsFrom rest message.arguments

/-- Operands that really concatenate: if the first is not a string and others follow, an empty
string goes in front. -/
def startingWithString : List Expr → List Expr
  | first :: second :: rest =>
    if first.isString then first :: second :: rest
    else .string "" :: first :: second :: rest
  | operands => operands

/-- The message as one expression. A message that consists of one expression is that expression. -/
def concatenation (message : Message) : Expr :=
  match message.sole? with
  | some only => only
  | none => (Expr.concatAll (startingWithString message.operands)).getD (.string "")

end Message

end LogCalls
