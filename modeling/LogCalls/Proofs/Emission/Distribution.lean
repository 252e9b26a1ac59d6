import LogCalls.Proofs.Convergence.Messages
import LogCalls.Proofs.Message.Concatenation
import LogCalls.Proofs.Tree.Sites

/-! # What goes over from the parts of a call

The message that is read from a call is made of parts of its arguments, and the call that is written for
a message is made of parts of the message. A property of expressions that can be read off their parts
goes over from the one call to the other. -/

namespace LogCalls

/-- The arguments beside an attached exception are those that were there, or the exception itself. -/
theorem Message.mem_arguments_shown {collapse : Bool} {error : Option Expr} {kept : List Segment}
    {argument : Expr} (member : argument ∈ Segment.arguments (shown collapse error kept)) :
    argument ∈ Segment.arguments kept ∨ error = some argument := by
  unfold shown at member
  split at member
  · rename_i error
    split at member
    · induction kept with
      | nil => cases member
      | cons segment rest ih =>
        cases segment with
        | text raw => exact ih member
        | argument expr =>
          rw [List.map_cons, collapseAccessor] at member
          split at member
          · rw [Segment.arguments_argument] at member
            obtain rfl | member := List.mem_cons.mp member
            · exact .inr rfl
            · exact (ih member).imp_left (List.mem_cons_of_mem expr)
          · rw [Segment.arguments_argument] at member
            obtain rfl | member := List.mem_cons.mp member
            · exact .inl List.mem_cons_self
            · exact (ih member).imp_left (List.mem_cons_of_mem expr)
    · exact .inl member
  · exact .inl member

section Segments

variable {options : Message.CompileOptions} {segments : List Segment} {expr : Expr}

/-- The arguments of a message are those of its segments, or the exception that is attached to it. -/
theorem Message.mem_arguments_ofSegments (member : expr ∈ (ofSegments options segments).arguments) :
    expr ∈ Segment.arguments segments ∨ (ofSegments options segments).error = some expr := by
  obtain ⟨kept, error, origin, made⟩ := ofSegments_cases options segments
  rw [made] at member ⊢
  refine (mem_arguments_shown member).imp_left fun stayed => ?_
  obtain ⟨rfl, -⟩ | ⟨-, other, -, rfl, -⟩ := origin
  · exact stayed
  · rw [Segment.arguments_append]
    exact List.mem_append_left _ stayed

/-- The exception that is attached to a message was given, or is an argument of its segments. -/
theorem Message.mem_of_error_ofSegments (attached : (ofSegments options segments).error = some expr) :
    expr ∈ Segment.arguments segments ∨ options.explicitError = some expr := by
  obtain ⟨kept, error, origin, made⟩ := ofSegments_cases options segments
  rw [made] at attached
  obtain ⟨-, rfl⟩ | ⟨-, other, -, rfl, rfl⟩ := origin
  · exact .inr attached
  · cases attached
    rw [Segment.arguments_append]
    exact .inl (List.mem_append_right _ List.mem_cons_self)

end Segments

namespace Expr

/-- A property of expressions that texts have, that an expression in parentheses has just if its part
has it, that goes over from a sum and from an array to their parts, and back to a concatenation and to an
array of objects. -/
structure Distributes (holds : Expr → Prop) : Prop where
  literal (value : Literal) : holds (.literal value)
  parens {inner : Expr} : holds (.parens inner) ↔ holds inner
  operands {operator : BinaryOperator} {left right : Expr} {type : Option JavaType} :
    holds (.binary operator left right type) → holds left ∧ holds right
  concat {left right : Expr} : holds left → holds right → holds (.concat left right)
  elements {element : JavaType} {elements : List Expr} :
    holds (.newArray element elements) → ∀ expr ∈ elements, holds expr
  objectArray {elements : List Expr} : (∀ expr ∈ elements, holds expr) → holds (.objectArray elements)

/-- Sites of an argument are in the list. -/
theorem mem_sitesList {place : Place} {exprs : List Expr} {expr : Expr} (member : expr ∈ exprs)
    {site : Site} (inside : site ∈ expr.sites place) : site ∈ sitesList place exprs := by
  rw [sitesList_eq_flatMap]
  exact List.mem_flatMap.mpr ⟨expr, member, inside⟩

/-- The sites of an argument are among those of the call. -/
theorem mem_sites_of_argument {place : Place} {select : Option Expr} {name : String}
    {arguments : List Expr} {method : Option ResolvedMethod} {argument : Expr}
    (member : argument ∈ arguments) {site : Site} (inside : site ∈ argument.sites place.argument) :
    site ∈ (Expr.methodCall select name arguments method).sites place := by
  have listed := mem_sitesList member inside
  cases select with
  | none => exact List.mem_cons_of_mem _ listed
  | some select => exact List.mem_cons_of_mem _ (List.mem_append_right _ listed)

/-- What is asked of all sites of an expression can be read off its parts, if it makes no difference
that the parts stand further inside. -/
theorem distributes_sites {holds : Site → Prop} {place : Place}
    (inner : ∀ {expr : Expr}, (∀ site ∈ expr.sites place.inner, holds site) ↔
      ∀ site ∈ expr.sites place, holds site)
    (bare : ∀ {expr : Expr}, (∀ site ∈ expr.sites place.bare, holds site) ↔
      ∀ site ∈ expr.sites place, holds site)
    (literal : ∀ value, holds ⟨place, .literal value⟩)
    (parens : ∀ {expr : Expr}, holds ⟨place, expr⟩ → holds ⟨place, .parens expr⟩)
    (concat : ∀ left right, holds ⟨place, .concat left right⟩)
    (objectArray : ∀ elements, holds ⟨place, .objectArray elements⟩) :
    Distributes fun expr => ∀ site ∈ expr.sites place, holds site where
  literal value := List.forall_mem_singleton.mpr (literal value)
  parens {expr} := by
    rw [sites, List.forall_mem_cons, bare, and_iff_right_iff_imp]
    exact fun each => parens (each _ (mem_sites_self place expr))
  operands {operator left right type} whole := by
    rw [sites, List.forall_mem_cons, List.forall_mem_append, inner, inner] at whole
    exact whole.2
  concat {left right} onLeft onRight := by
    rw [Expr.concat, sites, List.forall_mem_cons, List.forall_mem_append, inner, inner]
    exact ⟨concat left right, onLeft, onRight⟩
  elements {element elements} whole := by
    rw [sites, List.forall_mem_cons, sitesList_eq_flatMap, List.forall_mem_flatMap] at whole
    exact fun expr member => inner.mp (whole.2 expr member)
  objectArray {elements} each := by
    rw [Expr.objectArray, sites, List.forall_mem_cons, sitesList_eq_flatMap, List.forall_mem_flatMap]
    exact ⟨objectArray elements, fun expr member => inner.mpr (each expr member)⟩

namespace Distributes

variable {holds : Expr → Prop} (distributes : Distributes holds)

include distributes

/-! ### Reading -/

/-- What is true of an operand is true of its values. -/
theorem values {expr : Expr} (whole : holds expr) : ∀ value ∈ expr.values, holds value := by
  fun_induction Expr.values expr with
  | case1 raw => exact List.forall_mem_nil _
  | case2 left right type string leftHypothesis rightHypothesis =>
    obtain ⟨onLeft, onRight⟩ := distributes.operands whole
    intro value member
    obtain member | member := List.mem_append.mp member
    · exact leftHypothesis onLeft value member
    · exact rightHypothesis onRight value member
  | case3 => simpa using whole
  | case4 inner dissolves ih =>
    exact ih (distributes.parens.mp whole)
  | case5 => simpa using whole
  | case6 => simpa using whole

/-- What is true of all that follows a template is true of the arguments of the message and of its
exception. -/
theorem ofTemplate? {style : TemplateStyle} {raw : String} {trailing : List Expr} {message : Message}
    (read : Message.ofTemplate? style raw trailing = some message)
    (rest : ∀ expr ∈ trailing, holds expr) :
    ∀ expr ∈ message.arguments ++ message.error.toList, holds expr := by
  obtain ⟨error, only, -, rfl⟩ | ⟨-, -, taken⟩ | ⟨-, -, parameters, given, made⟩ :=
    Message.ofTemplate?_cases read
  · rw [Message.onlyError?_eq_some only] at rest
    exact rest
  · obtain ⟨shown, error, rfl, -, -, rfl⟩ | ⟨-, rfl⟩ := Message.ofArguments?_cases taken
    · exact rest
    · simpa using rest
  · -- The parameters are what follows, or the elements of an array that does.
    obtain ⟨alone, -, within, -⟩ := Indexed.arguments_message? made
    have held : ∀ expr ∈ parameters, holds expr := by
      obtain ⟨element, rfl⟩ | ⟨parameter, rfl, rfl, -⟩ := Message.parameters?_cases given
      · exact distributes.elements (rest _ List.mem_cons_self)
      · exact rest
    rw [alone, Option.toList_none, List.append_nil]
    exact fun expr member => held expr (within expr member)

/-- What is true of a message operand and of all that follows it is true of the arguments of the message
and of its exception. -/
theorem extract? {style : TemplateStyle} {collapse : Bool} {operand : Expr} {trailing : List Expr}
    {found : Message.Extracted}
    (read : Message.extract? style collapse operand trailing = some found) (whole : holds operand)
    (rest : ∀ expr ∈ trailing, holds expr) :
    ∀ expr ∈ found.message.arguments ++ found.message.error.toList, holds expr := by
  obtain ⟨raw, -, template, -⟩ | ⟨-, -, explicit, only, same⟩ := Message.extract?_cases read
  · exact distributes.ofTemplate? template rest
  · have values := distributes.values whole
    rw [← operand.arguments_segments] at values
    rw [Message.onlyError?_eq_some only] at rest
    have error (expr : Expr) (attached : found.message.error = some expr) : holds expr := by
      rw [same] at attached
      -- The exception is the last value of the operand, or what follows it.
      obtain moved | given := Message.mem_of_error_ofSegments attached
      · exact values expr moved
      · exact rest expr (Option.mem_toList.mpr given)
    intro expr member
    obtain member | member := List.mem_append.mp member
    · rw [same] at member error
      obtain stayed | attached := Message.mem_arguments_ofSegments member
      · exact values expr stayed
      · exact error expr attached
    · exact error expr (Option.mem_toList.mp member)

/-! ### Writing -/

/-- It is true in parentheses. -/
theorem asOperand {expr : Expr} (whole : holds expr) : holds expr.asOperand := by
  unfold Expr.asOperand
  split
  · exact distributes.parens.mpr whole
  · exact whole

/-- So it is of joined operands. -/
theorem foldl_concat {operands : List Expr} (each : ∀ expr ∈ operands, holds expr) {first : Expr}
    (start : holds first) : holds (operands.foldl Expr.concat first) := by
  induction operands generalizing first with
  | nil => exact start
  | cons operand rest ih =>
    obtain ⟨head, tail⟩ := List.forall_mem_cons.mp each
    exact ih tail (distributes.concat start head)

variable {message : Message} (each : ∀ expr ∈ message.arguments, holds expr)

include each

/-- So it is of a message. -/
theorem concatenation : holds message.concatenation := by
  unfold Message.concatenation
  split
  · rename_i only sole
    exact each only ((Message.sole?_eq_some_iff.mp sole).2 ▸ List.mem_cons_self)
  · have started : ∀ expr ∈ Message.startingWithString message.operands, holds expr :=
      Message.forall_mem_operands (fun _ => distributes.literal _) fun argument member =>
        distributes.asOperand (each argument member)
    cases joined : Message.startingWithString message.operands with
    | nil => exact distributes.literal _
    | cons first rest =>
      obtain ⟨head, tail⟩ := List.forall_mem_cons.mp (joined ▸ started)
      exact distributes.foldl_concat tail head

/-- So it is of its string. -/
theorem stringExpr : holds message.stringExpr := by
  unfold Message.stringExpr
  split
  · rename_i only sole
    obtain ⟨-, taken, -⟩ := Message.soleString?_eq_some_iff.mp sole
    exact each only (taken ▸ List.mem_cons_self)
  · split
    · exact distributes.literal _
    · dsimp only
      split
      · exact distributes.concatenation each
      · exact distributes.concat (distributes.literal _) (distributes.concatenation each)

/-- So it is of its arguments. -/
theorem templateArguments : ∀ expr ∈ message.templateArguments, holds expr :=
  Message.forall_mem_templateArguments (distributes.objectArray each) each
    fun _ => distributes.literal _

/-- So it is of their array. -/
theorem indexedParameters : holds message.indexedParameters :=
  Message.of_indexedParameters (distributes.objectArray each) each

omit each

/-- What is true of the marker, the arguments and the exception of an event, and of level constants, is
true of the arguments of the call that is written for it. -/
theorem written {event : LogEvent} {target : Framework} {severity : Severity} {name : String}
    {arguments : List Expr} (written : event.Written target severity name arguments)
    (marker : ∀ expr ∈ event.marker.toList, holds expr)
    (each : ∀ expr ∈ event.message.arguments, holds expr)
    (error : ∀ expr ∈ event.message.error.toList, holds expr)
    (level : ∀ levelType, target.levelType? = some levelType →
      ∀ constant, holds (.constant levelType constant)) :
    ∀ expr ∈ arguments, holds expr := by
  cases written with
  | template =>
    exact List.forall_mem_append.mpr
      ⟨List.forall_mem_append.mpr ⟨marker, distributes.templateArguments each⟩, error⟩
  | joined => exact List.forall_mem_cons.mpr ⟨distributes.concatenation each, error⟩
  | attached style levelType constant carriedError carried known =>
    rw [carried] at error
    exact List.forall_mem_cons.mpr ⟨level levelType known constant,
      List.forall_mem_cons.mpr ⟨distributes.stringExpr each, error⟩⟩
  | whole => exact List.forall_mem_singleton.mpr (distributes.stringExpr each)
  | indexed style levelType constant alone known =>
    exact List.forall_mem_cons.mpr ⟨level levelType known constant,
      List.forall_mem_cons.mpr ⟨distributes.literal _,
        List.forall_mem_singleton.mpr (distributes.indexedParameters each)⟩⟩

end Distributes

/-- How deep blocks are nested in an expression can be read off its parts. -/
theorem distributes_blockDepth (limit : Nat) : Distributes fun expr => expr.blockDepth ≤ limit where
  literal value := by
    rw [blockDepth]
    exact Nat.zero_le limit
  parens {inner} := by rw [blockDepth]
  operands whole := by
    rw [blockDepth] at whole
    exact Nat.max_le.mp whole
  concat left right := by
    rw [concat, blockDepth]
    exact Nat.max_le.mpr ⟨left, right⟩
  elements whole := by
    rw [blockDepth] at whole
    exact blockDepthList_le_iff.mp whole
  objectArray each := by
    rw [objectArray, blockDepth]
    exact blockDepthList_le_iff.mpr each

end Expr

/-! ## Events -/

/-- The marker, the arguments and the exception of the event have the property. -/
structure LogEvent.Consists (holds : Expr → Prop) (event : LogEvent) : Prop where
  marker : ∀ expr ∈ event.marker.toList, holds expr
  arguments : ∀ expr ∈ event.message.arguments, holds expr
  error : ∀ expr ∈ event.message.error.toList, holds expr

/-- What is true of the receiver and the arguments of a call is true of the event that it reports. -/
theorem Expr.Distributes.recognize? {holds : Expr → Prop} (distributes : Expr.Distributes holds)
    {options : RecognizeOptions} {select : Option Expr} {name : String} {arguments : List Expr}
    {method : Option ResolvedMethod} {call : LogCall}
    (recognized : LogCall.recognize? options (.methodCall select name arguments method) = some call)
    (onSelect : ∀ expr ∈ select, holds expr)
    (onArguments : ∀ expr ∈ arguments, holds expr) : call.toLogEvent.Consists holds := by
  cases origin : call.origin.framework? with
  | some framework =>
    have logs : call.origin = .framework framework := by
      cases same : call.origin with
      | framework called =>
        rw [same] at origin
        cases origin
        rfl
      | _ =>
        rw [same] at origin
        cases origin
    obtain ⟨name, level, operand, rest, found, same, -, read, message⟩ :=
      LogCall.recognize?_framework recognized logs
    cases same
    rw [List.forall_mem_append, List.forall_mem_append, List.forall_mem_cons] at onArguments
    obtain ⟨⟨-, marker⟩, onOperand, onRest⟩ := onArguments
    have both := distributes.extract? read onOperand onRest
    rw [← message, List.forall_mem_append] at both
    exact ⟨marker, both.1, both.2⟩
  | none =>
    obtain ⟨receiver, name, arguments, method, signature, same, -, unmarked, kind⟩ :=
      LogCall.recognize?_prints recognized origin
    cases same
    have marker : ∀ expr ∈ call.marker.toList, holds expr := by
      rw [unmarked]
      exact List.forall_mem_nil _
    obtain ⟨-, -, -, -, message⟩ | ⟨-, stream, value, found, -, alone, read, message⟩ := kind
    · refine ⟨marker, ?_, ?_⟩
      · rw [message]
        exact List.forall_mem_nil _
      · rw [message]
        exact List.forall_mem_singleton.mpr (onSelect receiver rfl)
    · rw [alone] at onArguments
      have both := distributes.extract? read (onArguments value List.mem_cons_self)
        (List.forall_mem_nil _)
      rw [← message, List.forall_mem_append] at both
      exact ⟨marker, both.1, both.2⟩

end LogCalls
