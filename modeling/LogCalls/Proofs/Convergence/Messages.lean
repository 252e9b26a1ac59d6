import LogCalls.Proofs.CallSite.Signatures
import LogCalls.Proofs.Convergence.Parts

/-! # Weights of messages

A message holds no more than the call that it is read from, and a call that is written for it holds no
more than the message. What such a call counts extra is bounded. Nothing is lost either, with one exception:
where requests for the message of an exception are collapsed, they give way to the exception itself. -/

namespace LogCalls

variable {error expr : Expr} {trailing : List Expr}

/-- An exception is asked for its message by a call without arguments. -/
theorem Expr.accessedError?_eq_some (asks : expr.accessedError? = some error) :
    ∃ name method, expr.bare = .methodCall (some error) name [] method ∧ name ∈ errorAccessors := by
  unfold accessedError? at asks
  split at asks
  · rename_i select name method bare
    dsimp only at asks
    split at asks
    · rename_i accessor
      cases asks
      simp only [Bool.and_eq_true, List.contains_eq_mem, decide_eq_true_eq] at accessor
      exact ⟨name, method, bare, accessor.1⟩
    · cases asks
  · cases asks

/-- An exception in a message is no concatenation. -/
theorem Expr.operandKind_eq_throwable (thrown : expr.operandKind = .throwable) :
    expr.isThrowable = true ∧ expr.bare.isConcatenation = false := by
  unfold operandKind at thrown
  split at thrown
  · cases thrown
  · split at thrown
    · cases thrown
    · rename_i other
      split at thrown
      · cases thrown
      · split at thrown
        · rename_i throwable
          exact ⟨throwable, Bool.eq_false_iff.mpr other⟩
        · cases thrown

/-- What follows a message that has no parameters is an exception. -/
theorem Message.isThrowable_of_onlyError? {error : Option Expr}
    (only : onlyError? trailing = some error) : ∀ expr ∈ trailing, expr.isThrowable = true := by
  unfold onlyError? at only
  split at only
  · simp
  · split at only
    · rename_i throwable
      simpa using throwable
    · cases only
  · cases only

/-- What is attached to a message that was read is an exception. -/
theorem Message.throwable_extract? {style : TemplateStyle} {collapse : Bool} {operand : Expr}
    {found : Extracted}
    (read : extract? style collapse operand trailing = some found)
    (attached : found.message.error = some error) : error.isThrowable = true := by
  have only {error : Expr} (only : onlyError? trailing = some (some error)) :
      error.isThrowable = true :=
    isThrowable_of_onlyError? only error (by simp [onlyError?_eq_some only])
  obtain ⟨raw, -, template, -⟩ | ⟨-, -, explicit, known, same⟩ := extract?_cases read
  · obtain ⟨carried, known, -, same⟩ | ⟨-, -, taken⟩ | ⟨-, -, parameters, -, message⟩ :=
      ofTemplate?_cases template
    · rw [same] at attached
      cases attached
      exact only known
    · obtain ⟨shown, last, -, throwable, -, same⟩ | ⟨-, same⟩ := ofArguments?_cases taken
      · rw [same] at attached
        cases attached
        exact throwable
      · rw [same] at attached
        cases attached
    · rw [(Indexed.arguments_message? message).1] at attached
      cases attached
  · obtain ⟨kept, moved, origin, made⟩ := ofSegments_cases
      { explicitError := explicit, collapseAccessors := collapse } operand.segments
    rw [same, made] at attached
    obtain ⟨rfl, rfl⟩ | ⟨-, expr, throwable, -, rfl⟩ := origin
    · dsimp only at attached
      rw [attached] at known
      exact only known
    · cases attached
      exact (Expr.operandKind_eq_throwable throwable).1

/-- Where requests for the message of an exception are collapsed, they count no more than it does. -/
def Collapsible (value : Expr → Nat) (collapse : Bool) : Prop :=
  collapse = true → ∀ expr error, expr.accessedError? = some error → error.isThrowable = true →
    value expr ≤ value error

namespace Valuation

variable {value : Expr → Nat} {wrap : Nat} (valuation : Valuation value wrap)

include valuation

/-! ## Reading -/

theorem pure (pure : expr.isPure = true) : value expr = 0 := by
  fun_induction Expr.isPure expr with
  | case1 => exact valuation.literal _
  | case2 => exact valuation.identifier _ _
  | case3 => exact valuation.classLiteral _
  | case4 => exact valuation.typeRef _
  | case5 target name type ih =>
    rw [valuation.fieldAccess, ih pure]
  | case6 inner ih => rw [valuation.parens, ih pure]
  | case7 => cases pure

/-- A concatenation counts as much as the values that it joins. -/
theorem values (expr : Expr) : total value expr.values = value expr := by
  fun_induction Expr.values expr with
  | case1 raw => exact (valuation.literal _).symm
  | case2 left right type string leftHypothesis rightHypothesis =>
    rw [total_append, leftHypothesis, rightHypothesis, valuation.binary]
  | case3 => rfl
  | case4 inner dissolves ih => rw [ih, valuation.parens]
  | case5 => rfl
  | case6 => rfl

/-- An exception counts no more than a request for its message. -/
theorem accessedError (asks : expr.accessedError? = some error) : value error ≤ value expr := by
  obtain ⟨name, method, bare, -⟩ := Expr.accessedError?_eq_some asks
  have := valuation.call (some error) name [] method
  rw [← bare, valuation.bare] at this
  simpa using this

/-- Collapsed requests count no more than before, and no less if they are collapsible. -/
theorem shown (collapse : Bool) (error : Option Expr) (kept : List Segment) :
    total value (Segment.arguments (Message.shown collapse error kept)) ≤
        total value (Segment.arguments kept) ∧
      (Collapsible value collapse → (∀ expr, error = some expr → expr.isThrowable = true) →
        total value (Segment.arguments kept) ≤
          total value (Segment.arguments (Message.shown collapse error kept))) := by
  unfold Message.shown
  split
  · rename_i error
    split
    · rename_i collapses
      induction kept with
      | nil => exact ⟨Nat.le_refl _, fun _ _ => Nat.le_refl _⟩
      | cons segment rest ih =>
        obtain ⟨fewer, more⟩ := ih
        cases segment with
        | text raw => exact ⟨fewer, more⟩
        | argument expr =>
          simp only [List.map_cons, Message.collapseAccessor, Segment.arguments_argument, total_cons]
          split
          · rename_i asks
            have := valuation.accessedError asks
            rw [Segment.arguments_argument, total_cons]
            refine ⟨by omega, fun collapsible thrown => ?_⟩
            have := collapsible collapses expr error asks (thrown error rfl)
            have := more collapsible thrown
            omega
          · rw [Segment.arguments_argument, total_cons]
            exact ⟨Nat.add_le_add_left fewer _, fun collapsible thrown =>
              Nat.add_le_add_left (more collapsible thrown) _⟩
    · exact ⟨Nat.le_refl _, fun _ _ => Nat.le_refl _⟩
  · exact ⟨Nat.le_refl _, fun _ _ => Nat.le_refl _⟩

/-- The arguments of an indexed pattern count as much as what follows it, but for an array around them:
they come in order, unless nothing is counted in them. -/
theorem parameters {raw : String} {parameters : List Expr} {message : Message}
    (given : Message.parameters? trailing = some parameters)
    (read : Indexed.message? raw parameters = some message) :
    total value message.arguments ≤ total value trailing ∧
      total value trailing ≤ total value message.arguments + wrap := by
  have held : total value parameters ≤ total value trailing ∧
      total value trailing ≤ total value parameters + wrap := by
    obtain ⟨element, rfl⟩ | ⟨parameter, rfl, rfl, -⟩ := Message.parameters?_cases given
    · rw [total_cons, valuation.newArray, total_nil]
      omega
    · omega
  obtain ⟨-, -, within, inOrder⟩ := Indexed.arguments_message? read
  by_cases impure : ∃ parameter ∈ parameters, parameter.isPure = false
  · rw [inOrder impure]
    exact held
  · have nothing (exprs : List Expr) (inside : ∀ expr ∈ exprs, expr ∈ parameters) :
        total value exprs = 0 := by
      rw [total_eq_zero_iff]
      intro expr member
      refine valuation.pure ?_
      have := fun isPure => impure ⟨expr, inside expr member, isPure⟩
      simpa using this
    have := nothing parameters fun _ => id
    have := nothing message.arguments within
    omega

/-- The arguments and the exception of a message come from its operand and what follows it. But for an
array around the arguments nothing else is counted there, if requests are collapsible. -/
theorem extract? {style : TemplateStyle} {collapse : Bool} {operand : Expr}
    {found : Message.Extracted}
    (read : Message.extract? style collapse operand trailing = some found) :
    total value found.message.arguments + total value found.message.error.toList ≤
        value operand + total value trailing ∧
      (Collapsible value collapse → value operand + total value trailing ≤
        total value found.message.arguments + total value found.message.error.toList + wrap) := by
  have thrown (expr : Expr) (attached : found.message.error = some expr) : expr.isThrowable = true :=
    Message.throwable_extract? read attached
  obtain ⟨raw, literal, template, -⟩ | ⟨-, -, error, only, same⟩ := Message.extract?_cases read
  · have text : value operand = 0 :=
      valuation.text (by rw [Expr.isText, literal]; rfl)
    obtain ⟨error, only, -, same⟩ | ⟨-, -, taken⟩ | ⟨-, -, parameters, given, message⟩ :=
      Message.ofTemplate?_cases template
    · rw [same, Message.onlyError?_eq_some only, text]
      simp only [Message.plain, total_nil]
      exact ⟨Nat.le_refl _, fun _ => Nat.le_add_right _ _⟩
    · obtain ⟨shown, error, rfl, -, -, same⟩ | ⟨-, same⟩ := Message.ofArguments?_cases taken
      · rw [same, total_append, text]
        simp only [Option.toList_some]
        exact ⟨by omega, fun _ => by omega⟩
      · rw [same, text]
        simp only [Option.toList_none, total_nil]
        exact ⟨by omega, fun _ => by omega⟩
    · have := valuation.parameters given message
      rw [(Indexed.arguments_message? message).1, Option.toList_none, total_nil]
      exact ⟨by omega, fun _ => by omega⟩
  · obtain ⟨kept, attached, origin, made⟩ := Message.ofSegments_cases
      { explicitError := error, collapseAccessors := collapse } operand.segments
    rw [same, made] at thrown
    obtain ⟨fewer, more⟩ := valuation.shown collapse attached kept
    have whole := congrArg (total value) operand.arguments_segments
    rw [valuation.values] at whole
    have held : total value (Segment.arguments kept) + total value attached.toList =
        value operand + total value trailing := by
      rw [Message.onlyError?_eq_some only]
      obtain ⟨rfl, rfl⟩ | ⟨free, expr, -, split, rfl⟩ := origin
      · rw [whole]
      · dsimp only at free
        rw [split, Segment.arguments_append, total_append] at whole
        rw [free, Option.toList_none, total_nil, ← whole]
        rfl
    rw [same, made]
    dsimp only
    exact ⟨by omega, fun collapsible => by have := more collapsible thrown; omega⟩

/-! ## Writing -/

/-- A message counts as much as a template with its arguments, but for an array that is wrapped. -/
theorem templateArguments (message : Message) :
    total value message.arguments ≤ total value message.templateArguments ∧
      total value message.templateArguments ≤ total value message.arguments + wrap := by
  obtain ⟨only, sole, written⟩ | ⟨bare, written⟩ | ⟨only, -, taken, -, -, written⟩ |
    ⟨-, -, -, written⟩ := message.templateArguments_cases
  · obtain ⟨-, taken, -⟩ := Message.soleString?_eq_some_iff.mp sole
    rw [written, taken]
    omega
  · have : value message.textLiteral = 0 := valuation.literal _
    rw [written, bare, total_cons, total_nil]
    omega
  · have : value (.string message.template) = 0 := valuation.literal _
    have wrapped : value (.objectArray [only]) = total value [only] + wrap := valuation.newArray _ _
    rw [written, taken]
    simp only [total_cons, total_nil] at wrapped ⊢
    omega
  · have : value (.string message.template) = 0 := valuation.literal _
    rw [written, total_cons]
    omega

/-- Parentheses around an operand count nothing. -/
theorem asOperand (expr : Expr) : value expr.asOperand = value expr := by
  unfold Expr.asOperand
  split
  · exact valuation.parens _
  · rfl

/-- A piece of text counts nothing. -/
theorem textOperand (piece : String) : total value (Message.textOperand piece) = 0 := by
  unfold Message.textOperand
  split
  · rfl
  · exact valuation.literal _

/-- Arguments are operands as long as there are pieces to go with them. -/
theorem operandsFrom (pieces : List String) (arguments : List Expr) :
    total value (Message.operandsFrom pieces arguments) ≤ total value arguments ∧
      (arguments.length ≤ pieces.length →
        total value arguments ≤ total value (Message.operandsFrom pieces arguments)) := by
  fun_induction Message.operandsFrom pieces arguments with
  | case1 arguments =>
    refine ⟨Nat.zero_le _, fun enough => ?_⟩
    obtain rfl := List.length_eq_zero_iff.mp (Nat.le_zero.mp enough)
    exact Nat.le_refl _
  | case2 piece rest ih =>
    rw [total_append, valuation.textOperand]
    exact ⟨by omega, fun _ => Nat.zero_le _⟩
  | case3 piece rest argument arguments ih =>
    rw [List.cons_append, total_cons, total_append, valuation.textOperand, valuation.asOperand,
      total_cons]
    refine ⟨by omega, fun enough => ?_⟩
    have := ih.2 (Nat.le_of_succ_le_succ enough)
    omega

/-- A concatenation counts as much as its operands. -/
theorem foldl_concat (operands : List Expr) (first : Expr) :
    value (operands.foldl Expr.concat first) = value first + total value operands := by
  induction operands generalizing first with
  | nil => rfl
  | cons operand rest ih =>
    rw [List.foldl_cons, ih, Expr.concat, valuation.binary, total_cons]
    omega

/-- An empty string in front counts nothing. -/
theorem startingWithString (operands : List Expr) :
    total value (Message.startingWithString operands) = total value operands := by
  unfold Message.startingWithString
  split
  · split
    · rfl
    · have : value (.string "") = 0 := valuation.literal _
      rw [total_cons]
      omega
  · rfl

/-- A message counts no more as a concatenation, and no less if it is balanced. -/
theorem concatenation (message : Message) :
    value message.concatenation ≤ total value message.arguments ∧
      (message.Balanced → total value message.arguments ≤ value message.concatenation) := by
  unfold Message.concatenation
  split
  · rename_i only sole
    unfold Message.sole? at sole
    split at sole
    · rename_i taken
      split at sole
      · cases sole
        rw [taken]
        exact ⟨Nat.le_refl _, fun _ => Nat.le_refl _⟩
      · cases sole
    · cases sole
  · have joined : value ((Expr.concatAll (Message.startingWithString message.operands)).getD
        (.string "")) = total value message.operands := by
      rw [← valuation.startingWithString message.operands]
      cases Message.startingWithString message.operands with
      | nil => exact valuation.literal _
      | cons first rest =>
        rw [Expr.concatAll, Option.getD_some, valuation.foldl_concat, ← total_cons]
    rw [joined]
    unfold Message.operands
    split
    · rename_i pieces
      refine ⟨Nat.zero_le _, fun balanced => ?_⟩
      have length := balanced.length_pieces
      rw [pieces] at length
      cases length
    · rename_i first rest pieces
      obtain ⟨fewer, more⟩ := valuation.operandsFrom rest message.arguments
      rw [total_append, valuation.textOperand, Nat.zero_add]
      refine ⟨fewer, fun balanced => more ?_⟩
      have length := balanced.length_pieces
      rw [pieces, List.length_cons] at length
      omega

/-- A message counts no more as one string, and no less if it is balanced. -/
theorem stringExpr (message : Message) : value message.stringExpr ≤ total value message.arguments ∧
      (message.Balanced → total value message.arguments ≤ value message.stringExpr) := by
  have empty : value (.string "") = 0 := valuation.literal _
  obtain ⟨fewer, more⟩ := valuation.concatenation message
  unfold Message.stringExpr
  split
  · rename_i only sole
    obtain ⟨-, taken, -⟩ := Message.soleString?_eq_some_iff.mp sole
    rw [taken]
    exact ⟨Nat.le_refl _, fun _ => Nat.le_refl _⟩
  · split
    · rename_i bare
      have : value message.textLiteral = 0 := valuation.literal _
      rw [List.isEmpty_iff.mp bare]
      exact ⟨by omega, fun _ => Nat.zero_le _⟩
    · dsimp only
      split
      · exact ⟨fewer, more⟩
      · rw [Expr.concat, valuation.binary, empty, Nat.zero_add]
        exact ⟨fewer, more⟩

/-- The parameters of an indexed pattern count as much together, but for an array around them. -/
theorem indexedParameters (message : Message) :
    total value message.arguments ≤ value message.indexedParameters ∧
      value message.indexedParameters ≤ total value message.arguments + wrap := by
  have wrapped (arguments : List Expr) :
      value (.objectArray arguments) = total value arguments + wrap := valuation.newArray _ _
  unfold Message.indexedParameters
  split
  · rename_i argument taken
    rw [taken]
    split
    · rw [wrapped]
      omega
    · rw [total_cons, total_nil]
      omega
  · rw [wrapped]
    omega

end Valuation

/-! ## Written calls -/

/-- With indexed templates there is a method that takes a level. -/
theorem Signature.find?_log {target : Framework} (style : target.templateStyle = .indexed) :
    find? target.loggerType "log" = some ⟨some target, .levelArgument⟩ := by
  cases target with
  | jul => decide
  | _ => cases style

namespace LogEvent

/-- The name and the arguments of the calls that are written for an event with a severity. -/
inductive Written (event : LogEvent) (target : Framework) (severity : Severity) :
    String → List Expr → Prop where
  | template (style : target.templateStyle = .anonymous) :
      Written event target severity (target.methodFor severity)
        (event.marker.toList ++ event.message.templateArguments ++ event.message.error.toList)
  | joined (style : target.templateStyle = .concatenation) :
      Written event target severity (target.methodFor severity)
        (event.message.concatenation :: event.message.error.toList)
  | attached (style : target.templateStyle = .indexed) (levelType constant : String) (error : Expr)
      (carried : event.message.error = some error) (known : target.levelType? = some levelType) :
      Written event target severity "log"
        [.constant levelType constant, event.message.stringExpr, error]
  | whole (style : target.templateStyle = .indexed) (alone : event.message.error = none)
      (bare : event.message.arguments = [] ∨ event.message.soleString?.isSome = true) :
      Written event target severity (target.methodFor severity) [event.message.stringExpr]
  | indexed (style : target.templateStyle = .indexed) (levelType constant : String)
      (alone : event.message.error = none) (known : target.levelType? = some levelType) :
      Written event target severity "log"
        [.constant levelType constant, .string event.message.indexed,
          event.message.indexedParameters]

/-- An event is written as one of these calls, with the severity that the policy gives. -/
theorem written_emit (event : LogEvent) (target : Framework) (policy : SeverityPolicy)
    (receiver : Expr) :
    ∃ name arguments,
      (event.emit target policy receiver).expr =
        .call receiver name arguments (.onInstance target.loggerType name) ∧
      event.Written target (policy.resolve event.severity target) name arguments := by
  unfold emit
  split
  · rename_i style
    exact ⟨_, _, rfl, .template style⟩
  · rename_i style
    exact ⟨_, _, rfl, .joined style⟩
  · rename_i style
    have known : target.levelType? = some (target.levelType?.getD julLevelType) := by
      cases target with
      | jul => rfl
      | _ => cases style
    unfold emitIndexed
    dsimp only
    split
    · rename_i error carried
      exact ⟨_, _, rfl, .attached style _ _ error carried known⟩
    · rename_i alone
      split
      · rename_i bare
        refine ⟨_, _, rfl, .whole style alone ?_⟩
        simpa using bare
      · exact ⟨_, _, rfl, .indexed style _ _ alone known⟩

namespace Written

variable {event : LogEvent} {target : Framework} {severity : Severity} {name : String}
  {arguments : List Expr}

/-- The method of a written call is recognised. -/
theorem find? (written : event.Written target severity name arguments)
    (supported : target.supports severity = true) :
    ∃ shape, Signature.find? target.loggerType name = some ⟨some target, shape⟩ ∧
      shape ≠ .factory := by
  cases written with
  | template => exact ⟨_, Signature.find?_methodFor supported, by simp⟩
  | joined => exact ⟨_, Signature.find?_methodFor supported, by simp⟩
  | attached style => exact ⟨_, Signature.find?_log style, by simp⟩
  | whole => exact ⟨_, Signature.find?_methodFor supported, by simp⟩
  | indexed style => exact ⟨_, Signature.find?_log style, by simp⟩

/-- A written call holds no more than its event, but for an array that is put around arguments. Nothing
of a balanced message is lost. -/
theorem total_le {value : Expr → Nat} {wrap : Nat} (valuation : Valuation value wrap)
    (written : event.Written target severity name arguments) :
    total value arguments ≤ total value event.marker.toList + total value event.message.arguments +
        total value event.message.error.toList + wrap ∧
      (event.message.Balanced →
        total value event.message.arguments + total value event.message.error.toList ≤
          total value arguments) := by
  have level (levelType constant : String) : value (.constant levelType constant) = 0 := by
    rw [Expr.constant, valuation.fieldAccess, valuation.typeRef]
  obtain ⟨fewer, more⟩ := valuation.stringExpr event.message
  cases written with
  | template =>
    have := valuation.templateArguments event.message
    rw [total_append, total_append]
    exact ⟨by omega, fun _ => by omega⟩
  | joined =>
    obtain ⟨fewer, more⟩ := valuation.concatenation event.message
    rw [total_cons]
    exact ⟨by omega, fun balanced => Nat.add_le_add_right (more balanced) _⟩
  | attached style levelType constant error carried =>
    rw [carried, total_cons, total_cons, level, Option.toList_some]
    exact ⟨by omega, fun balanced => by have := more balanced; omega⟩
  | whole style alone =>
    rw [alone, total_cons, total_nil]
    exact ⟨by omega, more⟩
  | indexed style levelType constant alone =>
    have := valuation.indexedParameters event.message
    have : value (.string event.message.indexed) = 0 := valuation.literal _
    rw [alone, total_cons, total_cons, total_cons, total_nil, level, Option.toList_none, total_nil]
    exact ⟨by omega, fun _ => by omega⟩

/-- The extras of a written call are those for its message, and one for its severity. -/
theorem charge_le (written : event.Written target severity name arguments)
    (supported : target.supports severity = true) (tariff : Tariff) (method : Option ResolvedMethod) :
    tariff.charge name arguments method ≤ tariff.messageCharge name arguments method + 1 := by
  obtain ⟨shape, found, notFactory⟩ := written.find? supported
  have named : ¬ (name = "getLogger" ∨ name = "getLog") :=
    fun named => notFactory ((Signature.find?_factory_iff found).mpr named)
  have key : tariff.keyCharge name arguments = 0 := by
    unfold Tariff.keyCharge
    rw [if_neg]
    simp only [Bool.and_eq_true, Bool.or_eq_true, beq_iff_eq]
    exact fun charged => named charged.1.1
  -- A written call that takes a level has three arguments.
  have level : Tariff.levelCharge name arguments method = 0 := by
    have method : target.methodFor severity ≠ "log" := by
      cases target <;> cases severity <;> decide
    cases written <;> simp [Tariff.levelCharge, method]
  have severity : tariff.severityCharge name ≤ 1 := by
    unfold Tariff.severityCharge
    split <;> omega
  rw [Tariff.charge]
  omega

end Written

end LogEvent

namespace Expr

/-- The type of an array passes no test that all array types fail. -/
theorem isArray_eq_false {test : JavaType → Bool}
    (rejects : ∀ element, test (.array element) = false) (typed : expr.hasType test = true) :
    expr.isArray = false := by
  rw [hasType, Option.any_eq_true] at typed
  obtain ⟨type, known, passes⟩ := typed
  rw [isArray, hasType, known]
  cases type with
  | array element =>
    rw [rejects] at passes
    cases passes
  | primitive kind => rfl
  | classType type => rfl

theorem joints_bare (expr : Expr) : expr.bare.joints = expr.joints := by
  fun_induction bare expr with
  | case1 inner ih => rw [ih, joints]
  | case2 => rfl

/-- An expression that is not an array is a concatenation or none. -/
theorem joints_of_isArray_eq_false (scalar : expr.isArray = false) :
    expr.joints = if expr.bare.isConcatenation then 1 else 0 := by
  have unwrapped : ∀ inner, expr.bare ≠ .parens inner := by
    fun_induction bare expr with
    | case1 inner ih =>
      refine ih ?_
      rwa [isArray, hasType, staticType_parens] at scalar
    | case2 expr notParens => exact notParens
  rw [isArray, hasType, ← staticType_bare] at scalar
  rw [← joints_bare]
  generalize expr.bare = bare at scalar unwrapped
  cases bare with
  | parens inner => exact absurd rfl (unwrapped inner)
  | newArray element elements => cases scalar
  | binary operator left right type =>
    cases operator <;> cases type <;> rfl
  | _ => rfl

theorem joints_le_one (scalar : expr.isArray = false) : expr.joints ≤ 1 := by
  rw [joints_of_isArray_eq_false scalar]
  split <;> omega

end Expr

/-- A message as one string is a string. -/
theorem Message.isString_stringExpr (message : Message) : message.stringExpr.isString = true := by
  unfold stringExpr
  split
  · rename_i only sole
    exact (soleString?_eq_some_iff.mp sole).2.2
  · split
    · rfl
    · dsimp only
      split
      · rename_i string
        exact string
      · rfl

/-- A string is at most one concatenation. -/
theorem Expr.joints_le_one_of_isString (string : expr.isString = true) : expr.joints ≤ 1 :=
  joints_le_one (isArray_eq_false (fun _ => rfl) string)

/-- A written call has a text among its arguments, or one string beside the marker and the exception,
unless its framework has no templates. The string is the whole message, or it is put together for an
exception that cannot be attached to parameters. -/
theorem LogEvent.Written.string_cases {event : LogEvent} {target : Framework} {severity : Severity}
    {name : String} {arguments : List Expr}
    (written : event.Written target severity name arguments)
    (style : target.templateStyle ≠ .concatenation) :
    (∃ text ∈ arguments, text.isText = true) ∨
      ∃ string, string.isString = true ∧
        (event.message.soleString? = some string ∨
          (target.templateStyle = .indexed ∧ event.message.error ≠ none ∧
            event.message.arguments ≠ [])) ∧
        Expr.jointsList arguments ≤ Expr.jointsList event.marker.toList + string.joints +
          Expr.jointsList event.message.error.toList := by
  have level (levelType constant : String) : (Expr.constant levelType constant).joints = 0 := rfl
  have textual (empty : event.message.arguments = []) : event.message.stringExpr.isText = true := by
    have sole : event.message.soleString? = none := by
      rw [Message.soleString?, Message.sole?, empty]
      rfl
    rw [Message.stringExpr, sole, empty]
    rfl
  cases written with
  | template =>
    obtain ⟨only, sole, written⟩ | ⟨-, written⟩ | ⟨only, -, -, -, -, written⟩ | ⟨-, -, -, written⟩ :=
      event.message.templateArguments_cases
    · refine .inr ⟨only, (Message.soleString?_eq_some_iff.mp sole).2.2, .inl sole, ?_⟩
      rw [written, Expr.jointsList_append, Expr.jointsList_append, Expr.jointsList,
        Expr.jointsList]
      omega
    · exact .inl ⟨event.message.textLiteral, by simp [written], rfl⟩
    · exact .inl ⟨.string event.message.template, by simp [written], rfl⟩
    · exact .inl ⟨.string event.message.template, by simp [written], rfl⟩
  | joined joins => exact absurd joins style
  | attached style levelType constant error carried =>
    by_cases empty : event.message.arguments = []
    · exact .inl ⟨event.message.stringExpr, by simp, textual empty⟩
    · refine .inr ⟨_, event.message.isString_stringExpr, .inr ⟨style, by simp [carried], empty⟩, ?_⟩
      simp only [Expr.jointsList, level, carried, Option.toList_some]
      omega
  | whole style alone bare =>
    obtain empty | sole := bare
    · exact .inl ⟨event.message.stringExpr, by simp, textual empty⟩
    · obtain ⟨only, sole⟩ := Option.isSome_iff_exists.mp sole
      have same : event.message.stringExpr = only := by rw [Message.stringExpr, sole]
      refine .inr ⟨only, (Message.soleString?_eq_some_iff.mp sole).2.2, .inl sole, ?_⟩
      rw [same, Expr.jointsList, Expr.jointsList]
      omega
  | indexed => exact .inl ⟨.string event.message.indexed, by simp, rfl⟩

end LogCalls
