import LogCalls.Proofs.Message.Concatenation
import LogCalls.Proofs.Message.Indexed
import Mathlib.Data.List.Forall2

/-! # Written concatenations are read back

For a framework without templates a message is written as a concatenation of its pieces and its
arguments. The concatenation is taken apart again when the call is read, and what comes out is the
message that was written, with parentheses around the arguments that have operators of their own. -/

namespace LogCalls

/-! ## Texts around arguments -/

namespace Segment

theorem texts_ne_nil (segments : List Segment) : texts segments ≠ [] := by
  intro none
  have length := length_texts segments
  rw [none] at length
  cases length

theorem texts_text (raw : String) (rest : List Segment) :
    texts (.text raw :: rest) = (texts rest).modifyHead (raw ++ ·) := by
  rw [texts]
  cases found : texts rest with
  | nil => exact absurd found (texts_ne_nil rest)
  | cons first others => rfl

/-- Putting neighbouring texts together keeps the texts around the arguments. -/
theorem texts_merge (segments : List Segment) : texts (merge segments) = texts segments := by
  induction segments with
  | nil => rfl
  | cons segment rest ih =>
    cases segment with
    | argument expr => rw [merge, texts, texts, ih]
    | text raw =>
      rw [merge, texts_text, ← ih]
      split
      · rename_i empty
        cases found : texts (merge rest) <;> simp [empty]
      · split
        · rename_i next others merged
          rw [merged, texts_text, texts_text, List.modifyHead_modifyHead]
          congr 1
          funext text
          exact String.append_assoc
        · rw [texts_text]

/-- After an argument at the end there is no text. -/
theorem texts_append_argument (segments : List Segment) (expr : Expr) :
    texts (segments ++ [.argument expr]) = texts segments ++ [""] := by
  induction segments with
  | nil => rfl
  | cons segment rest ih =>
    cases segment with
    | argument other => rw [List.cons_append, texts, ih, texts]; rfl
    | text raw =>
      rw [List.cons_append, texts_text, ih, texts_text]
      cases found : texts rest with
      | nil => exact absurd found (texts_ne_nil rest)
      | cons first others => rfl

end Segment

/-! ## Operands of a concatenation -/

namespace Expr

/-- The expression itself, or one with operators in a pair of parentheses. -/
inductive Wrapped : Expr → Expr → Prop where
  | same (expr : Expr) : Wrapped expr expr
  | parens (operator : BinaryOperator) (left right : Expr) (type : Option JavaType) :
      Wrapped (.binary operator left right type) (.parens (.binary operator left right type))

theorem wrapped_asOperand (expr : Expr) : Wrapped expr expr.asOperand := by
  cases expr with
  | binary operator left right type => exact .parens operator left right type
  | _ => exact .same _

@[simp] theorem dissolves_asOperand (expr : Expr) : expr.asOperand.dissolves = expr.dissolves := by
  cases expr with
  | binary operator left right type => exact dissolves_parens _
  | _ => rfl

@[simp] theorem staticType_asOperand (expr : Expr) :
    expr.asOperand.staticType = expr.staticType := by
  cases expr <;> rfl

@[simp] theorem isThrowable_asOperand (expr : Expr) :
    expr.asOperand.isThrowable = expr.isThrowable := by
  rw [isThrowable, hasType, staticType_asOperand, isThrowable, hasType]

/-- The segments of operands one after the other. -/
def leavesAll (operands : List Expr) : List Segment :=
  operands.flatMap fun operand => leaves operand operand

theorem leavesAll_cons (operand : Expr) (rest : List Expr) :
    leavesAll (operand :: rest) = leaves operand operand ++ leavesAll rest := rfl

/-- A concatenation associated to the left is taken apart into its operands. -/
theorem leaves_foldl_concat (first : Expr) (rest : List Expr) :
    leaves (rest.foldl concat first) (rest.foldl concat first) = leavesAll (first :: rest) := by
  induction rest generalizing first with
  | nil => simp [leavesAll]
  | cons next rest ih =>
    have pair : leaves (concat first next) (concat first next) =
        leaves first first ++ leaves next next := rfl
    rw [List.foldl_cons, ih, leavesAll_cons, pair, leavesAll_cons, leavesAll_cons,
      List.append_assoc]

/-- Several operands make a concatenation. -/
theorem exists_foldl_concat (first next : Expr) (rest : List Expr) :
    ∃ left right, (next :: rest).foldl concat first = concat left right := by
  induction rest generalizing first next with
  | nil => exact ⟨first, next, rfl⟩
  | cons other rest ih => exact ih (concat first next) other

end Expr

namespace Message

open LogCalls.Expr
open Segment (texts)

/-- A piece of text as operand goes to the front of the first text. -/
theorem texts_textOperand (piece : String) (operands : List Expr) :
    texts (leavesAll (textOperand piece ++ operands)) =
      (texts (leavesAll operands)).modifyHead (piece ++ ·) := by
  rw [textOperand]
  split
  · rename_i empty
    cases found : texts (leavesAll operands) <;> simp [empty, found]
  · exact Segment.texts_text piece (leavesAll operands)

/-- A piece of text as operand brings no argument. -/
theorem arguments_textOperand (piece : String) (operands : List Expr) :
    Segment.arguments (leavesAll (textOperand piece ++ operands)) =
      Segment.arguments (leavesAll operands) := by
  rw [textOperand]
  split <;> rfl

/-- An argument as operand is a segment by itself, also in parentheses. -/
theorem leavesAll_asOperand {argument : Expr} (kept : argument.dissolves = false)
    (rest : List Expr) :
    leavesAll (argument.asOperand :: rest) = .argument argument.asOperand :: leavesAll rest := by
  rw [leavesAll_cons, leaves_of_dissolves_eq_false (by rw [dissolves_asOperand, kept])]
  rfl

/-- Arguments and the pieces after them, taken apart. -/
theorem leavesAll_operandsFrom {pieces : List String} {arguments : List Expr}
    (balanced : pieces.length = arguments.length)
    (kept : ∀ argument ∈ arguments, argument.dissolves = false) :
    texts (leavesAll (operandsFrom pieces arguments)) = "" :: pieces ∧
      Segment.arguments (leavesAll (operandsFrom pieces arguments)) = arguments.map asOperand := by
  induction pieces generalizing arguments with
  | nil =>
    rw [List.eq_nil_of_length_eq_zero balanced.symm]
    exact ⟨rfl, rfl⟩
  | cons piece pieces ih =>
    cases arguments with
    | nil => cases balanced
    | cons argument arguments =>
      obtain ⟨first, others⟩ := List.forall_mem_cons.mp kept
      obtain ⟨read, taken⟩ := ih (Nat.succ.inj balanced) others
      rw [operandsFrom, List.cons_append, leavesAll_asOperand first, texts, texts_textOperand,
        read, Segment.arguments_argument, arguments_textOperand, taken]
      simp

variable {message : Message}

/-- The operands of a message, taken apart, are its pieces with its arguments between them. -/
theorem leavesAll_operands (balanced : message.Balanced)
    (kept : ∀ argument ∈ message.arguments, argument.dissolves = false) :
    texts (leavesAll message.operands) = message.pieces ∧
      Segment.arguments (leavesAll message.operands) = message.arguments.map asOperand := by
  have length := balanced.length_pieces
  rw [operands]
  cases found : message.pieces with
  | nil =>
    rw [found] at length
    cases length
  | cons first rest =>
    rw [found] at length
    obtain ⟨read, taken⟩ := leavesAll_operandsFrom (Nat.succ.inj length) kept
    rw [texts_textOperand, read, arguments_textOperand, taken]
    simp

/-- The empty string in front of operands is no text of its own. -/
theorem leavesAll_startingWithString (operands : List Expr) :
    texts (leavesAll (startingWithString operands)) = texts (leavesAll operands) ∧
      Segment.arguments (leavesAll (startingWithString operands)) =
        Segment.arguments (leavesAll operands) := by
  fun_cases startingWithString operands with
  | case1 => exact ⟨rfl, rfl⟩
  | case2 first second rest other =>
    refine ⟨?_, rfl⟩
    have whole := texts_textOperand "" (first :: second :: rest)
    have empty := Segment.texts_text "" (leavesAll (first :: second :: rest))
    exact empty.trans whole.symm
  | case3 => exact ⟨rfl, rfl⟩

/-- A message with arguments has at least two operands, unless it consists of one expression. -/
theorem exists_operands (balanced : message.Balanced) (nonempty : message.arguments ≠ [])
    (composed : message.sole? = none) :
    ∃ first second rest, message.operands = first :: second :: rest := by
  have length := balanced.length_pieces
  obtain ⟨argument, arguments, taken⟩ := List.exists_cons_of_ne_nil nonempty
  obtain ⟨first, second, rest, found⟩ : ∃ first second rest,
      message.pieces = first :: second :: rest := by
    match read : message.pieces with
    | [] | [_] =>
      rw [read, taken] at length
      cases length
    | first :: second :: rest => exact ⟨first, second, rest, rfl⟩
  rw [found, taken] at length
  rw [operands, found, taken]
  by_cases empty : first = ""
  · by_cases emptyToo : second = ""
    · subst empty emptyToo
      cases arguments with
      | nil =>
        -- Nothing stands around the argument, so the template is a lone placeholder.
        rw [List.eq_nil_of_length_eq_zero (Nat.succ.inj (Nat.succ.inj length))] at found
        have bare : message.template = "\x7b\x7d" :=
          Template.eq_of_pieces_eq (found.trans (by decide))
        rw [sole?, taken, bare] at composed
        cases composed
      | cons other arguments =>
        cases rest with
        | nil => cases length
        | cons third rest => exact ⟨_, _, _, rfl⟩
    · refine ⟨argument.asOperand, .string second, operandsFrom rest arguments, ?_⟩
      simp [operandsFrom, textOperand, empty, emptyToo]
  · refine ⟨.string first, argument.asOperand, textOperand second ++ operandsFrom rest arguments, ?_⟩
    simp [operandsFrom, textOperand, empty]

/-- The message is written as a concatenation that has its pieces and arguments as operands. -/
theorem exists_concatenation (balanced : message.Balanced) (nonempty : message.arguments ≠ [])
    (composed : message.sole? = none)
    (kept : ∀ argument ∈ message.arguments, argument.dissolves = false) :
    ∃ left right, message.concatenation = concat left right ∧
      texts (concat left right).segments = message.pieces ∧
      Segment.arguments (concat left right).segments = message.arguments.map asOperand := by
  obtain ⟨first, second, rest, several⟩ := exists_operands balanced nonempty composed
  obtain ⟨read, taken⟩ := leavesAll_operands balanced kept
  obtain ⟨sameTexts, sameArguments⟩ := leavesAll_startingWithString message.operands
  obtain ⟨front, next, others, written⟩ : ∃ front next others,
      startingWithString message.operands = front :: next :: others := by
    rw [several, startingWithString]
    split <;> exact ⟨_, _, _, rfl⟩
  obtain ⟨left, right, joined⟩ := exists_foldl_concat front next others
  refine ⟨left, right, ?_, ?_, ?_⟩
  · rw [concatenation, composed, written]
    exact joined
  · rw [segments, Segment.texts_merge, ← joined, leaves_foldl_concat, ← written, sameTexts, read]
  · rw [segments, Segment.arguments_merge, ← joined, leaves_foldl_concat, ← written, sameArguments,
      taken]

/-! ## Reading what was written -/

/-- In a concatenation no part of the message is taken for something else. -/
structure Concatenable (message : Message) : Prop where
  /-- The types of all arguments are known. -/
  known : ∀ argument ∈ message.arguments, argument.staticType.isSome = true
  /-- No argument is a text or a concatenation, which would be taken apart, also in parentheses: they
  are looked through by `Expr.dissolves`. -/
  kept : ∀ argument ∈ message.arguments, argument.dissolves = false
  /-- What is attached is an exception. -/
  throwable : ∀ error, message.error = some error → error.isThrowable = true
  /-- With nothing attached, no exception stands at the very end, from where it would be attached. -/
  unmoved : message.error = none → message.pieces.getLast? = some "" →
    ∀ last, message.arguments.getLast? = some last → last.isThrowable = false

/-- Segments can be read if the texts can be represented and the types of the arguments are known. -/
theorem readable_of_known {segments : List Segment}
    (representable : Segment.representable segments = true)
    (known : ∀ argument ∈ Segment.arguments segments, argument.staticType.isSome = true) :
    readable segments = true := by
  rw [Segment.representable, List.all_eq_true] at representable
  rw [readable, List.all_eq_true]
  intro segment member
  cases segment with
  | text raw => exact representable _ member
  | argument expr => exact known expr (List.mem_filterMap.mpr ⟨_, member, rfl⟩)

/-- With these segments a message is read as it was written. -/
theorem ofSegments_of_texts {segments : List Segment} (separated : Segment.Separated segments)
    (clear : message.Concatenable) (read : texts segments = message.pieces)
    (taken : Segment.arguments segments = message.arguments.map asOperand) :
    readable segments = true ∧
      ofSegments { explicitError := message.error } segments =
        { message with arguments := message.arguments.map asOperand } := by
  have representable : Segment.representable segments = true := by
    apply Indexed.representable_of_texts separated
    intro text member
    rw [read] at member
    exact Template.isRepresentable_of_mem_pieces member
  have template : Segment.template segments = message.template := by
    apply Template.eq_of_pieces_eq
    rw [Segment.pieces_template separated representable, read]
    rfl
  refine ⟨readable_of_known representable ?_, ?_⟩
  · rw [taken]
    intro argument member
    obtain ⟨original, given, rfl⟩ := List.mem_map.mp member
    rw [staticType_asOperand]
    exact clear.known original given
  · obtain ⟨kept, error, origin, made⟩ := ofSegments_cases { explicitError := message.error } segments
    obtain ⟨rfl, rfl⟩ | ⟨alone, expr, throwable, rfl, rfl⟩ := origin
    · rw [made, shown_false, template, taken]
    · -- The exception would be the last argument, with no text after it.
      rw [Segment.texts_append_argument] at read
      rw [Segment.arguments_append] at taken
      obtain ⟨last, found, rfl⟩ : ∃ last, message.arguments.getLast? = some last ∧
          last.asOperand = expr := by
        rw [← Option.map_eq_some_iff, ← List.getLast?_map, ← taken]
        exact List.getLast?_concat
      have whole := clear.kept last (List.mem_of_getLast? found)
      rw [← dissolves_asOperand] at whole
      have thrown := (operandKind_of_dissolves_eq_false whole).2.2 throwable
      have ends : message.pieces.getLast? = some "" := by rw [← read, List.getLast?_concat]
      rw [isThrowable_asOperand, clear.unmoved alone ends last found] at thrown
      cases thrown

/-- The arguments of the message as they stand in the operand that is written for it. -/
def operandArguments (message : Message) : List Expr :=
  if message.sole?.isSome then message.arguments else message.arguments.map asOperand

/-- They are the arguments up to parentheses around those with operators. -/
theorem forall₂_operandArguments (message : Message) :
    List.Forall₂ Wrapped message.arguments message.operandArguments := by
  rw [operandArguments]
  split
  · exact List.forall₂_same.mpr fun argument _ => .same argument
  · rw [List.forall₂_map_right_iff]
    exact List.forall₂_same.mpr fun argument _ => wrapped_asOperand argument

/-- **What is written for a message is read as that message**, with parentheses around the arguments
that have operators of their own. It is canonical only if nothing had to be concatenated. -/
theorem extract?_concatenation (balanced : message.Balanced) (clear : message.Concatenable) :
    extract? .concatenation false message.concatenation message.error.toList =
      some { message := { message with arguments := message.operandArguments }
             isCanonical := message.sole?.isSome || message.arguments.isEmpty } := by
  cases sole : message.sole? with
  | some only =>
    obtain ⟨bare, taken⟩ := sole?_eq_some_iff.mp sole
    have member : only ∈ message.arguments := by rw [taken]; exact List.mem_singleton_self only
    have unmoved : message.error = none → only.isThrowable = false := by
      intro none
      refine clear.unmoved none ?_ only (by rw [taken]; rfl)
      rw [pieces, bare]
      decide
    have read := extract?_value .concatenation (clear.kept only member) (clear.known only member)
      clear.throwable unmoved
    rw [← bare, ← taken] at read
    rw [concatenation, operandArguments, sole]
    exact read
  | none =>
    cases taken : message.arguments with
    | nil =>
      -- One piece is left, which is written as the text of the message.
      have length := balanced.length_pieces
      rw [taken] at length
      obtain ⟨piece, single⟩ := List.length_eq_one_iff.mp length
      have written : message.concatenation = message.textLiteral := by
        rw [concatenation, sole, operands, single, textLiteral, text, single]
        by_cases empty : piece = ""
        · simp [empty, textOperand, operandsFrom, startingWithString, concatAll]
        · simp [empty, textOperand, operandsFrom, startingWithString, concatAll]
      have same : message.operandArguments = message.arguments := by
        rw [operandArguments, taken]
        split <;> rfl
      rw [written, extract?_textLiteral .concatenation balanced taken clear.throwable, same]
      rfl
    | cons argument others =>
      have nonempty : message.arguments ≠ [] := by simp [taken]
      obtain ⟨left, right, written, texts, arguments⟩ :=
        exists_concatenation balanced nonempty sole clear.kept
      obtain ⟨readable, made⟩ :=
        ofSegments_of_texts (separated_segments _) clear texts arguments
      have sum : (concat left right).operandKind = .concatenation := rfl
      have typed : (concat left right).staticType = some .string := rfl
      rw [written, extract?, sum]
      simp [onlyError?_toList clear.throwable, typed, readable, made, operandArguments, sole, taken]

end Message

namespace LogCall

/-- **Written calls are read back without templates, too.** For a framework that knows no templates,
the call that is written for an event is recognised as a call of that framework on the same receiver,
with the severity that the policy gives. Its message has the same template and the same attached
exception, and the same arguments up to a pair of parentheses around those with operators of their
own. The message has one placeholder for each argument, and none of its parts can be taken for
something else. -/
theorem recognize?_emit_concatenation (event : LogEvent) (target : Framework)
    (policy : SeverityPolicy) (receiver : Expr) (style : target.templateStyle = .concatenation)
    (known : receiver.staticType.isSome = true) (balanced : event.message.Balanced)
    (clear : event.message.Concatenable) :
    let severity := policy.resolve event.severity target
    ∃ arguments, List.Forall₂ Expr.Wrapped event.message.arguments arguments ∧
      recognize? {} (event.emit target policy receiver).expr = some {
        severity, message := { event.message with arguments }, receiver
        origin := .framework target
        isCanonical := event.message.sole?.isSome || event.message.arguments.isEmpty
        method := .onInstance target.loggerType (target.methodFor severity) } := by
  intro severity
  refine ⟨event.message.operandArguments, event.message.forall₂_operandArguments, ?_⟩
  have emitted : (event.emit target policy receiver).expr =
      target.leveledCall severity receiver
        (event.message.concatenation :: event.message.error.toList) := by
    rw [LogEvent.emit, style]
  -- The method's name leads back to the severity, as the policy picks one that has a method.
  have supported : target.supports severity = true :=
    policy.supports_resolve event.severity target
  have resolved := resolveSignature?_methodFor supported (some receiver)
  -- Frameworks without templates have no markers, either.
  have unmarked : target.isMarker event.message.concatenation = false := by
    revert style
    cases target <;> simp [Framework.templateStyle, Framework.isMarker, Framework.markerType?]
  have split : target.splitMarker (event.message.concatenation :: event.message.error.toList) =
      (none, event.message.concatenation :: event.message.error.toList) := by
    rw [Framework.splitMarker, unmarked]
    rfl
  obtain ⟨type, found⟩ := Option.isSome_iff_exists.mp known
  rw [emitted, Framework.leveledCall, Expr.call, recognize?, resolved]
  simp only [Option.bind_eq_bind, Option.bind_some, ofFramework?, found, split, style,
    Message.extract?_concatenation balanced clear, Option.pure_def]

/-- An empty first piece, a sum of numbers that is put in parentheses, and an exception that is printed
before a text with braces in it. -/
theorem recognize?_emit_concatenation_sum :
    let logger := Expr.ident "log" (.named "org.apache.commons.logging.Log")
    let sum := Expr.binary .add (.ident "a" (.primitive .int)) (.ident "b" (.primitive .int))
      (some (.primitive .int))
    let error := Expr.ident "e" (.named ClassName.throwable)
    let message : Message := { template := "\x7b\x7d\x7b\x7d: \\\\\x7b\x7d", arguments := [sum, error] }
    let event : LogEvent := { severity := .fatal, message }
    (event.emit .commons {} logger).expr = .call logger "fatal" [.concat (.concat (.concat
        (.string "") (.parens sum)) error) (.string ": \x7b\x7d")]
        (.onInstance "org.apache.commons.logging.Log" "fatal") ∧
      ∃ arguments, List.Forall₂ Expr.Wrapped [sum, error] arguments ∧
        recognize? {} (event.emit .commons {} logger).expr = some {
          severity := .fatal, message := { message with arguments }, receiver := logger
          origin := .framework .commons, isCanonical := false
          method := .onInstance "org.apache.commons.logging.Log" "fatal" } := by
  intro logger sum error message event
  refine ⟨by decide, recognize?_emit_concatenation event .commons {} logger rfl rfl (by decide) ?_⟩
  refine ⟨by decide, by decide, nofun, fun _ ends => ?_⟩
  exact absurd ends (by decide)

end LogCall

end LogCalls
