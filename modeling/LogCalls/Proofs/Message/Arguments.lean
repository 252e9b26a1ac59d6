import LogCalls.Proofs.Message.Extraction

/-! # Arguments of messages

No value is lost, repeated or reordered on the way from an operand to the arguments of its message.
The one exception are indexed patterns, whose parameters may be repeated and reordered if evaluating
them makes no difference. -/

namespace LogCalls

variable {trailing parameters : List Expr} {message : Message}

/-! ## Concatenations -/

namespace Expr

/-- In a concatenation the expression is replaced by what it is made of: a string literal by its
text, a concatenation by its operands. -/
def dissolves (expr : Expr) : Bool :=
  expr.bare.stringLiteral?.isSome || expr.bare.isConcatenation

/-- The values that a concatenation joins from left to right, without the string literals between
them. Parentheses around a value belong to it. -/
def values : Expr → List Expr
  | .literal (.string _) => []
  | .binary .add left right (some type) =>
    if type.isString then left.values ++ right.values
    else [.binary .add left right (some type)]
  | .parens inner => if inner.dissolves then inner.values else [.parens inner]
  | expr => [expr]

end Expr

namespace Segment

theorem arguments_append (front back : List Segment) :
    arguments (front ++ back) = arguments front ++ arguments back :=
  List.filterMap_append

/-- Putting texts together leaves the arguments alone. -/
theorem arguments_merge (segments : List Segment) :
    arguments (merge segments) = arguments segments := by
  induction segments with
  | nil => rfl
  | cons segment rest ih =>
    cases segment with
    | argument expr => rw [merge, arguments_argument, arguments_argument, ih]
    | text raw =>
      rw [merge, arguments_text]
      split
      · exact ih
      · split
        · rename_i next others merged
          rw [merged, arguments_text] at ih
          rw [arguments_text, ih]
        · rw [arguments_text, ih]

end Segment

namespace Expr

@[simp] theorem dissolves_parens (inner : Expr) :
    (Expr.parens inner).dissolves = inner.dissolves := by
  rw [dissolves, bare_parens, dissolves]

/-- An expression that is neither a string literal nor a concatenation is the one value in it. -/
theorem values_of_dissolves_eq_false {expr : Expr} (whole : expr.dissolves = false) :
    expr.values = [expr] := by
  unfold values
  split
  · cases whole
  · rename_i left right type
    have other : type.isString = false := whole
    rw [other]
    rfl
  · rename_i inner
    rw [dissolves_parens] at whole
    rw [whole]
    rfl
  · rfl

theorem ite_dissolves_values (expr : Expr) :
    (if expr.dissolves then expr.values else [expr]) = expr.values := by
  split
  · rfl
  · rename_i whole
    exact (values_of_dissolves_eq_false (Bool.eq_false_iff.mpr whole)).symm

/-- The expression is a value in its own right unless it is made of something else. -/
theorem dissolves_eq_false {expr : Expr} (notParens : ∀ inner, expr ≠ .parens inner)
    (notLiteral : ∀ raw, expr ≠ .literal (.string raw))
    (notSum : ∀ left right type, expr ≠ .binary .add left right (some type)) :
    expr.dissolves = false := by
  have bare : expr.bare = expr := by
    unfold Expr.bare
    split
    · exact absurd rfl (notParens _)
    · rfl
  have text : expr.stringLiteral? = none := by
    unfold stringLiteral?
    split
    · exact absurd rfl (notLiteral _)
    · rfl
  have sum : expr.isConcatenation = false := by
    unfold isConcatenation
    split
    · exact absurd rfl (notSum _ _ _)
    · rfl
  rw [dissolves, bare, text, sum]
  rfl

/-- The values that a concatenation joins are no texts and no concatenations. -/
theorem dissolves_of_mem_values {expr value : Expr} (member : value ∈ expr.values) :
    value.dissolves = false := by
  fun_induction values expr with
  | case1 raw => cases member
  | case2 left right type string leftHypothesis rightHypothesis =>
    obtain member | member := List.mem_append.mp member
    · exact leftHypothesis member
    · exact rightHypothesis member
  | case3 left right type other =>
    obtain rfl := List.mem_singleton.mp member
    exact Bool.eq_false_iff.mpr other
  | case4 inner dissolves ih => exact ih member
  | case5 inner kept =>
    obtain rfl := List.mem_singleton.mp member
    rw [dissolves_parens]
    exact Bool.eq_false_iff.mpr kept
  | case6 expr notLiteral notSum notParens =>
    obtain rfl := List.mem_singleton.mp member
    exact dissolves_eq_false notParens notLiteral notSum

/-- The values among the operands are those that the concatenation joins. An expression that is no
concatenation is itself the one value, with the parentheses around it. -/
theorem arguments_leaves (whole expr : Expr) :
    Segment.arguments (leaves whole expr) = if expr.dissolves then expr.values else [whole] := by
  fun_induction leaves whole expr with
  -- Under parentheses the whole stays what it was; an operand of a sum is a whole of its own.
  | case1 whole inner ih =>
    rw [ih, dissolves_parens, values]
    split <;> rfl
  | case2 whole raw => rfl
  | case3 whole left right type string leftHypothesis rightHypothesis =>
    have dissolved : (Expr.binary .add left right (some type)).dissolves = true := string
    rw [ite_dissolves_values] at leftHypothesis rightHypothesis
    rw [Segment.arguments_append, leftHypothesis, rightHypothesis, dissolved, values, string]
    rfl
  | case4 whole left right type other =>
    have kept : (Expr.binary .add left right (some type)).dissolves = false :=
      Bool.eq_false_iff.mpr other
    rw [kept]
    rfl
  | case5 whole expr notParens notLiteral notSum =>
    rw [dissolves_eq_false notParens notLiteral notSum]
    rfl

/-- The arguments of an operand's segments are the values that it joins. -/
theorem arguments_segments (expr : Expr) : Segment.arguments expr.segments = expr.values := by
  rw [segments, Segment.arguments_merge, arguments_leaves, ite_dissolves_values]

end Expr

/-- Attaching an exception from the end of the segments keeps all values in their order. -/
theorem Message.arguments_ofSegments (explicitError : Option Expr) (segments : List Segment) :
    (ofSegments { explicitError } segments).arguments ++
        (ofSegments { explicitError } segments).error.toList =
      Segment.arguments segments ++ explicitError.toList := by
  obtain ⟨kept, error, origin, same⟩ := ofSegments_cases { explicitError } segments
  rw [same, shown_false]
  obtain ⟨rfl, rfl⟩ | ⟨absent, expr, -, rfl, rfl⟩ := origin
  · rfl
  · -- The exception moves from the last argument to the slot behind the arguments.
    cases explicitError with
    | some error => cases absent
    | none =>
      rw [Segment.arguments_append]
      exact (List.append_nil _).symm

/-! ## Indexed patterns -/

namespace Indexed

/-- The parameters of an indexed pattern are the elements of an array, or a single value. A single
exception is attached to the call and is no parameter. -/
inductive Parameters : List Expr → List Expr → Prop where
  | array (element : JavaType) (elements : List Expr) :
      Parameters [.newArray element elements] elements
  | single (parameter : Expr) (value : parameter.isThrowable = false)
      (scalar : ∀ element elements, parameter ≠ .newArray element elements) :
      Parameters [parameter] [parameter]

/-- These are the parameters that are read, unless what follows the pattern is just an exception. -/
theorem parameters_iff : Parameters trailing parameters ↔
      Message.onlyError? trailing = none ∧ Message.parameters? trailing = some parameters := by
  constructor
  · rintro (⟨element, elements⟩ | ⟨parameter, value, scalar⟩)
    · exact ⟨rfl, rfl⟩
    · refine ⟨by rw [Message.onlyError?, value]; rfl, ?_⟩
      unfold Message.parameters?
      split
      · rename_i element elements same
        cases same
        exact absurd rfl (scalar element elements)
      · rename_i same
        cases same
        rfl
      · rename_i other
        exact absurd rfl (other parameter)
  · rintro ⟨more, read⟩
    obtain ⟨element, rfl⟩ | ⟨parameter, rfl, rfl, scalar⟩ := Message.parameters?_cases read
    · exact .array element parameters
    · refine .single parameter ?_ scalar
      cases value : parameter.isThrowable with
      | false => rfl
      | true =>
        rw [Message.onlyError?, value] at more
        cases more

/-- The arguments of a pattern are the parameters that it refers to, in the order in which it does. -/
theorem map_some_arguments {items : List Item} {segments : List Segment}
    (made : segments? parameters items = some segments) :
    (Segment.arguments segments).map some = (references items).map (parameters[·]?) := by
  induction items generalizing segments with
  | nil =>
    cases made
    rfl
  | cons item rest ih =>
    cases item with
    | char c =>
      obtain ⟨found, read, gathered⟩ := Option.bind_eq_some_iff.mp made
      have known := ih read
      split at gathered
      · cases gathered
        exact known
      · cases gathered
        exact known
    | reference index =>
      obtain ⟨parameter, known, more⟩ := Option.bind_eq_some_iff.mp made
      obtain ⟨found, read, same⟩ := Option.bind_eq_some_iff.mp more
      cases same
      have refers : references (.reference index :: rest) = index :: references rest := rfl
      rw [Segment.arguments_argument, refers, List.map_cons, List.map_cons, known,
        ih read]

/-- The arguments of a pattern that refers to its parameters in order are the parameters. -/
theorem arguments_of_inOrder {items : List Item} {segments : List Segment}
    (made : segments? parameters items = some segments)
    (inOrder : references items = List.range parameters.length) :
    Segment.arguments segments = parameters := by
  have same : (Segment.arguments segments).map some = parameters.map some := by
    rw [map_some_arguments made, inOrder]
    exact List.ext_getElem (by simp) (by simp)
  exact (List.map_inj_right fun _ _ => Option.some.inj).mp same

/-- A message that is read from an indexed pattern has each parameter among its arguments and no
others. If evaluating one of them could make a difference, the arguments are the parameters. -/
theorem arguments_message? {pattern : String} (read : message? pattern parameters = some message) :
    message.error = none ∧ (∀ parameter ∈ parameters, parameter ∈ message.arguments) ∧
      (∀ argument ∈ message.arguments, argument ∈ parameters) ∧
      ((∃ parameter ∈ parameters, parameter.isPure = false) → message.arguments = parameters) := by
  obtain ⟨items, segments, -, made, all, ordered, -, rfl⟩ := message?_cases read
  have taken := map_some_arguments made
  refine ⟨rfl, ?_, ?_, ?_⟩
  · intro parameter member
    obtain ⟨index, bound, rfl⟩ := List.mem_iff_getElem.mp member
    have referred : some parameters[index] ∈ (Segment.arguments segments).map some := by
      rw [taken]
      exact List.mem_map.mpr ⟨index, all index bound, List.getElem?_eq_getElem bound⟩
    simpa using referred
  · intro argument member
    have referred : some argument ∈ (references items).map (parameters[·]?) := by
      rw [← taken]
      exact List.mem_map_of_mem member
    obtain ⟨index, -, known⟩ := List.mem_map.mp referred
    exact List.mem_of_getElem? known
  · rintro ⟨parameter, member, impure⟩
    -- One parameter that is not pure rules out everything but the given order.
    have inOrder : references items = List.range parameters.length := by
      obtain inOrder | pure := ordered
      · exact inOrder
      · rw [pure parameter member] at impure
        cases impure
    exact arguments_of_inOrder made inOrder

end Indexed

/-! ## Literals -/

namespace Message

/-- What follows a literal in a framework without indexed patterns are the arguments and the attached
exception. -/
theorem arguments_ofTemplate? {style : TemplateStyle} {raw : String}
    (read : ofTemplate? style raw trailing = some message)
    (unindexed : style ≠ .indexed) : message.arguments ++ message.error.toList = trailing := by
  obtain ⟨error, only, -, rfl⟩ | ⟨-, -, taken⟩ | ⟨-, indexed, -⟩ := ofTemplate?_cases read
  · exact (onlyError?_eq_some only).symm
  · obtain ⟨shown, error, rfl, -, -, rfl⟩ | ⟨-, rfl⟩ := ofArguments?_cases taken
    · rfl
    · exact List.append_nil trailing
  · exact absurd indexed unindexed

/-- A literal without parameters is no pattern: nothing but an exception follows it. -/
theorem arguments_ofTemplate?_of_no_parameters {raw : String}
    (read : ofTemplate? .indexed raw trailing = some message)
    (others : ∀ parameters, ¬ Indexed.Parameters trailing parameters) :
    message.arguments = [] ∧ message.error.toList = trailing := by
  obtain ⟨error, only, -, rfl⟩ | ⟨-, anonymous, -⟩ | ⟨more, -, parameters, given, -⟩ :=
    ofTemplate?_cases read
  · exact ⟨rfl, (onlyError?_eq_some only).symm⟩
  · cases anonymous
  · exact absurd (Indexed.parameters_iff.mpr ⟨more, given⟩) (others parameters)

/-- A literal with parameters is read as an indexed pattern. -/
theorem ofTemplate?_of_parameters (given : Indexed.Parameters trailing parameters) (raw : String) :
    ofTemplate? .indexed raw trailing = Indexed.message? raw parameters := by
  obtain ⟨more, same⟩ := Indexed.parameters_iff.mp given
  simp only [ofTemplate?, more, same, Option.bind_eq_bind, Option.bind_some]

/-! ## Any operand -/

/-- The arguments of a message, and the exception attached to it, are what its operand and the
expressions after it have to offer. -/
structure KeepsArguments (style : TemplateStyle) (operand : Expr) (rest : List Expr)
    (message : Message) : Prop where
  /-- An operand that is no literal offers the values it joins, and the rest follows them. -/
  joined : (∀ raw, operand.bare ≠ .string raw) →
    message.arguments ++ message.error.toList = operand.values ++ rest
  /-- After a literal there is only the rest. -/
  literal : ∀ raw, operand.bare = .string raw → style ≠ .indexed →
    message.arguments ++ message.error.toList = rest
  /-- An indexed pattern without parameters has no arguments, and the rest is attached. -/
  unparameterized : ∀ raw, operand.bare = .string raw → style = .indexed →
    (∀ parameters, ¬ Indexed.Parameters rest parameters) →
    message.arguments = [] ∧ message.error.toList = rest
  /-- An indexed pattern has each parameter as an argument and no others. They are in order, and none
  is repeated, if evaluating one of them could make a difference. -/
  parameterized : ∀ raw, operand.bare = .string raw → style = .indexed →
    ∀ parameters, Indexed.Parameters rest parameters →
      message.error = none ∧ (∀ parameter ∈ parameters, parameter ∈ message.arguments) ∧
      (∀ argument ∈ message.arguments, argument ∈ parameters) ∧
      ((∃ parameter ∈ parameters, parameter.isPure = false) → message.arguments = parameters)

/-- Messages that are read out of calls keep all arguments. -/
theorem keepsArguments_extract? {style : TemplateStyle} {operand : Expr}
    {found : Extracted} (read : extract? style false operand trailing = some found) :
    found.message.KeepsArguments style operand trailing := by
  obtain ⟨raw, literal, taken, -⟩ | ⟨other, -, error, only, same⟩ := extract?_cases read
  · have isLiteral := Expr.stringLiteral?_eq_some_iff.mp literal
    exact {
      joined := fun joined => absurd isLiteral (joined raw)
      literal := fun _ _ unindexed => arguments_ofTemplate? taken unindexed
      unparameterized := by
        rintro _ - rfl none
        exact arguments_ofTemplate?_of_no_parameters taken none
      parameterized := by
        rintro _ - rfl parameters given
        rw [ofTemplate?_of_parameters given] at taken
        exact Indexed.arguments_message? taken }
  · have notLiteral (raw : String) : operand.bare ≠ .string raw := fun literal =>
      other (Expr.operandKind_eq_literal_iff.mpr
        ⟨raw, Expr.stringLiteral?_eq_some_iff.mpr literal⟩)
    exact {
      joined := by
        intro _
        rw [same, arguments_ofSegments, Expr.arguments_segments, onlyError?_eq_some only]
      literal := fun raw literal => absurd literal (notLiteral raw)
      unparameterized := fun raw literal => absurd literal (notLiteral raw)
      parameterized := fun raw literal => absurd literal (notLiteral raw) }

end Message

end LogCalls
