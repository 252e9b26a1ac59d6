import LogCalls.Proofs.Convergence.Moves

/-! # Calls with templates get lighter

A call of a framework with templates is written anew if its message is put together from parts, or if
calls for the text of an argument are taken off. The first makes its message a text or one value, and
the second leaves less of its arguments. -/

namespace LogCalls

namespace Parameterize

/-- What is taken off is a call without arguments. -/
theorem stripped?_eq_some {argument receiver : Expr} (strips : stripped? argument = some receiver) :
    ∃ method, argument = .methodCall (some receiver) "toString" [] method := by
  unfold stripped? at strips
  split at strips
  · split at strips
    · cases strips
      exact ⟨_, rfl⟩
    · cases strips
  · cases strips

theorem isHollow_strip (argument : Expr) : (strip argument).isHollow = argument.isHollow := by
  unfold strip
  cases found : stripped? argument with
  | none => rfl
  | some receiver =>
    obtain ⟨method, rfl⟩ := stripped?_eq_some found
    rw [Option.getD_some, Expr.isHollow]
    rfl

theorem endsHollow_map_strip (arguments back : List Expr) :
    Expr.endsHollow (arguments.map strip ++ back) = Expr.endsHollow (arguments ++ back) := by
  simp only [Expr.endsHollow_eq_getLast?, List.getLast?_append, List.getLast?_map]
  cases back.getLast? with
  | some last => rfl
  | none =>
    cases arguments.getLast? with
    | none => rfl
    | some last => simp [isHollow_strip]

end Parameterize

namespace Valuation

variable {value : Expr → Nat} {wrap : Nat} (valuation : Valuation value wrap)

include valuation

theorem strip (argument : Expr) : value (Parameterize.strip argument) ≤ value argument := by
  unfold Parameterize.strip
  cases found : Parameterize.stripped? argument with
  | none => exact Nat.le_refl _
  | some receiver =>
    obtain ⟨method, rfl⟩ := Parameterize.stripped?_eq_some found
    have := valuation.call (some receiver) "toString" [] method
    simpa using this

/-- The arguments that are printed count no more than those of the message. -/
theorem printed (settings : Parameterize) (message : Message) :
    total value (settings.printed message).arguments ≤ total value message.arguments := by
  unfold Parameterize.printed
  split
  · dsimp only
    induction message.arguments with
    | nil => exact Nat.le_refl _
    | cons argument rest ih =>
      have := valuation.strip argument
      rw [List.map_cons, total_cons, total_cons]
      omega
  · exact Nat.le_refl _

end Valuation

/-- Values of a concatenation that are strings are no concatenations. -/
theorem Expr.joints_of_mem_values {expr value : Expr} (member : value ∈ expr.values)
    (string : value.isString = true) : value.joints = 0 := by
  have joins : value.bare.isConcatenation = false :=
    (Bool.or_eq_false_iff.mp (dissolves_of_mem_values member)).2
  rw [joints_of_isArray_eq_false (isArray_eq_false (fun _ => rfl) string), joins]
  rfl

/-- An operand that is read as a concatenation is one. -/
theorem Expr.joints_of_operandKind {operand : Expr} (joins : operand.operandKind = .concatenation) :
    operand.joints = 1 := by
  have sum : operand.bare.isConcatenation = true := by
    unfold operandKind at joins
    split at joins
    · cases joins
    · split at joins
      · rename_i sum
        exact sum
      · split at joins
        · cases joins
        · split at joins <;> cases joins
  rw [← joints_bare]
  unfold isConcatenation at sum
  split at sum
  · rename_i bare
    rw [bare, joints, if_pos sum]
  · cases sum

/-- An operand that is neither a literal nor a concatenation is a value by itself. -/
theorem Expr.dissolves_of_operandKind {operand : Expr} (other : operand.operandKind ≠ .literal)
    (single : operand.operandKind ≠ .concatenation) : operand.dissolves = false := by
  unfold operandKind at other single
  rw [dissolves, Bool.or_eq_false_iff]
  split at other
  · exact absurd rfl other
  · rename_i notLiteral
    rw [if_neg notLiteral] at single
    split at single
    · exact absurd rfl single
    · rename_i notSum
      exact ⟨Bool.eq_false_iff.mpr notLiteral, Bool.eq_false_iff.mpr notSum⟩

/-- An operand that is no literal is no text. -/
theorem Expr.isText_of_operandKind {operand : Expr} (other : operand.operandKind ≠ .literal) :
    operand.isText = false := by
  cases text : operand.isText with
  | false => rfl
  | true => exact absurd (operandKind_eq_literal_iff.mpr (Option.isSome_iff_exists.mp text)) other

/-- An exception is no text. -/
theorem Expr.isText_of_isThrowable {expr : Expr} (throwable : expr.isThrowable = true) :
    expr.isText = false := by
  cases text : expr.isText with
  | false => rfl
  | true =>
    obtain ⟨raw, literal⟩ := Option.isSome_iff_exists.mp text
    rw [isThrowable, hasType, ← staticType_bare, stringLiteral?_eq_some_iff.mp literal] at throwable
    cases throwable

namespace Tariff

variable {tariff : Tariff}

/-! ## Stripped arguments -/

theorem weight_strip (tariff : Tariff) {argument : Expr}
    (strips : (Parameterize.stripped? argument).isSome = true) :
    2 * tariff.weight (Parameterize.strip argument) + 100 ≤ tariff.weight argument := by
  obtain ⟨receiver, found⟩ := Option.isSome_iff_exists.mp strips
  rw [Parameterize.strip, found, Option.getD_some]
  obtain ⟨method, rfl⟩ := Parameterize.stripped?_eq_some found
  have unknown : "toString" ∉ Signature.knownNames := by decide
  have := tariff.le_weight_of_not_mem_knownNames unknown (some receiver) [] method
  simp only [Option.toList_some, total_cons, total_nil] at this
  omega

/-- Arguments weigh less once one of them is stripped. -/
theorem total_map_strip (tariff : Tariff) {arguments : List Expr}
    (strips : arguments.any (Parameterize.stripped? · |>.isSome) = true) :
    total tariff.weight (arguments.map Parameterize.strip) + 100 ≤ total tariff.weight arguments := by
  have each (rest : List Expr) :
      total tariff.weight (rest.map Parameterize.strip) ≤ total tariff.weight rest :=
    tariff.valuation_weight.printed { stripToString := true } { template := "", arguments := rest }
  obtain ⟨argument, member, found⟩ := List.any_eq_true.mp strips
  obtain ⟨front, back, rfl⟩ := List.append_of_mem member
  have := each front
  have := each back
  have := tariff.weight_strip found
  simp only [List.map_append, List.map_cons, total_append, total_cons]
  omega

/-- Behind a text, arguments get lighter by what is stripped from them. -/
theorem trail_map_strip (tariff : Tariff) (arguments back : List Expr) :
    tariff.trail (arguments.map Parameterize.strip ++ back) + total tariff.weight arguments ≤
      tariff.trail (arguments ++ back) +
        total tariff.weight (arguments.map Parameterize.strip) := by
  induction arguments with
  | nil => exact Nat.le_refl _
  | cons argument rest ih =>
    have := tariff.valuation_weight.strip argument
    have empty : (rest.map Parameterize.strip ++ back).isEmpty = (rest ++ back).isEmpty := by
      cases rest <;> rfl
    simp only [List.map_cons, List.cons_append, trail, total_cons, empty,
      Parameterize.endsHollow_map_strip]
    split <;> omega

/-! ## Messages that are put together -/

/-- Each request that is collapsed takes a hundred off, and without any the values are shown. -/
theorem shown_cases (tariff : Tariff) (collapse : Bool) (error : Option Expr) (kept : List Segment) :
    total tariff.weight (Segment.arguments (Message.shown collapse error kept)) + 100 ≤
        total tariff.weight (Segment.arguments kept) ∨
      Segment.arguments (Message.shown collapse error kept) = Segment.arguments kept := by
  unfold Message.shown
  split
  · rename_i error
    split
    · induction kept with
      | nil => exact .inr rfl
      | cons segment rest ih =>
        cases segment with
        | text raw => exact ih
        | argument expr =>
          have lighter :
              total tariff.weight (Segment.arguments (rest.map (Message.collapseAccessor error))) ≤
                total tariff.weight (Segment.arguments rest) :=
            (tariff.valuation_weight.shown true (some error) rest).1
          rw [List.map_cons, Message.collapseAccessor]
          split
          · rename_i asks
            have := tariff.le_weight_of_accessedError asks
            left
            simp only [Segment.arguments_argument, total_cons]
            omega
          · simp only [Segment.arguments_argument, total_cons]
            obtain saved | same := ih
            · left
              omega
            · exact .inr (by rw [same])
    · exact .inr rfl
  · exact .inr rfl

section Joined

variable {style : TemplateStyle} {collapse : Bool} {operand : Expr} {trailing : List Expr}
  {found : Message.Extracted}

/-- Only an exception can follow an operand that is no literal. The attached exception is that one or
comes from the operand, and is no concatenation then. -/
theorem joints_extract? (read : Message.extract? style collapse operand trailing = some found)
    (other : operand.operandKind ≠ .literal) :
    (∀ expr ∈ trailing, expr.isThrowable = true) ∧
      Expr.jointsList found.message.error.toList ≤ Expr.jointsList trailing := by
  obtain ⟨raw, literal, -⟩ | ⟨-, -, error, only, same⟩ := Message.extract?_cases read
  · exact absurd (Expr.operandKind_eq_literal_iff.mpr ⟨raw, literal⟩) other
  · refine ⟨Message.isThrowable_of_onlyError? only, ?_⟩
    obtain ⟨kept, attached, origin, made⟩ := Message.ofSegments_cases
      { explicitError := error, collapseAccessors := collapse } operand.segments
    rw [same, made, Message.onlyError?_eq_some only]
    obtain ⟨-, rfl⟩ | ⟨-, expr, thrown, -, rfl⟩ := origin
    · exact Nat.le_refl _
    · obtain ⟨throwable, whole⟩ := Expr.operandKind_eq_throwable thrown
      have scalar := Expr.isArray_eq_false (fun _ => rfl) throwable
      have jointless : expr.joints = 0 := by rw [Expr.joints_of_isArray_eq_false scalar, whole]; rfl
      simp [Expr.jointsList, jointless]

/-- The arguments of a message are values of the operand, unless requests are collapsed. -/
theorem extract?_saves (tariff : Tariff)
    (read : Message.extract? style collapse operand trailing = some found)
    (other : operand.operandKind ≠ .literal) :
    total tariff.weight found.message.arguments +
          total tariff.weight found.message.error.toList + 100 ≤
        tariff.weight operand + total tariff.weight trailing ∨
      ∀ argument ∈ found.message.arguments, argument ∈ operand.values := by
  obtain ⟨raw, literal, -⟩ | ⟨-, -, error, only, same⟩ := Message.extract?_cases read
  · exact absurd (Expr.operandKind_eq_literal_iff.mpr ⟨raw, literal⟩) other
  · obtain ⟨kept, attached, origin, made⟩ := Message.ofSegments_cases
      { explicitError := error, collapseAccessors := collapse } operand.segments
    have values := operand.arguments_segments
    have whole := tariff.valuation_weight.values operand
    rw [same, made, Message.onlyError?_eq_some only]
    dsimp only
    obtain ⟨rfl, rfl⟩ | ⟨-, expr, -, split, rfl⟩ := origin
    · rw [← values] at whole ⊢
      obtain saved | same := tariff.shown_cases collapse attached operand.segments
      · left
        omega
      · right
        rw [same]
        exact fun _ => id
    · rw [split, Segment.arguments_append] at values
      rw [← values, total_append] at whole
      simp only [Segment.arguments_argument, total_cons] at whole
      obtain saved | same := tariff.shown_cases collapse (some expr) kept
      · left
        simp only [Option.toList_some, total_cons, total_nil]
        omega
      · right
        rw [same, ← values]
        exact fun _ => List.mem_append_left _

/-- A message with arguments that is not canonical is put together in one concatenation. -/
theorem joints_of_isCanonical_eq_false
    (read : Message.extract? style collapse operand trailing = some found)
    (rewritten : found.isCanonical = false) (shown : found.message.arguments ≠ []) :
    operand.joints = 1 := by
  obtain joins | ⟨other, single, only, attached⟩ :=
    Message.extract?_of_isCanonical_eq_false read rewritten
  · exact Expr.joints_of_operandKind joins
  · -- An exception that is the whole operand leaves no arguments.
    refine absurd ?_ shown
    obtain ⟨raw, literal, -⟩ | ⟨-, -, error, explicit, same⟩ := Message.extract?_cases read
    · exact absurd (Expr.operandKind_eq_literal_iff.mpr ⟨raw, literal⟩) other
    · cases only.symm.trans explicit
      obtain ⟨kept, moved, origin, made⟩ := Message.ofSegments_cases
        { explicitError := none, collapseAccessors := collapse } operand.segments
      rw [same, made] at attached ⊢
      obtain ⟨-, rfl⟩ | ⟨-, expr, -, split, rfl⟩ := origin
      · cases attached
      · rw [Expr.segments_of_dissolves_eq_false (Expr.dissolves_of_operandKind other single)] at split
        have empty : kept = [] := by simpa using congrArg List.length split
        rw [empty, Message.shown]
        cases collapse <;> rfl

end Joined

/-! ## Written calls -/

section Written

variable {settings : Parameterize} {event : LogEvent} {framework : Framework} {severity : Severity}
  {name : String} {arguments : List Expr}

/-- The extras of a call that is written for a framework with templates are bounded. -/
theorem charge_template_le (tariff : Tariff) (method : ResolvedMethod)
    (written : event.Written framework severity name arguments)
    (supported : framework.supports severity = true)
    (style : framework.templateStyle ≠ .concatenation)
    (marker : Expr.jointsList event.marker.toList ≤ 1)
    (error : Expr.jointsList event.message.error.toList ≤ 1) :
    tariff.charge name arguments (some method) ≤ 33 := by
  have extras := written.charge_le supported tariff (some method)
  have message : tariff.messageCharge name arguments (some method) ≤ 32 := by
    obtain ⟨text, member, isText⟩ | ⟨string, isString, -, joints⟩ := written.string_cases style
    · rw [messageCharge_of_isText isText member]
      exact Nat.zero_le _
    · have := Expr.joints_le_one_of_isString isString
      have := tariff.messageCharge_le_joints name arguments (some method)
      omega
  omega

/-- What is written behind a text, or as one string, when arguments are stripped. -/
theorem load_template_le (tariff : Tariff) {message : Message}
    (strips : settings.stripToString = true ∧
      message.arguments.any (Parameterize.stripped? · |>.isSome) = true)
    {marker : Option Expr} (textless : ∀ expr ∈ marker.toList, expr.isText = false) :
    tariff.load (marker.toList ++ (settings.printed message).templateArguments ++
        message.error.toList) + 98 ≤
      2 * total tariff.weight marker.toList +
        tariff.trail (message.arguments ++ message.error.toList) := by
  have printed : settings.printed message =
      { message with arguments := message.arguments.map Parameterize.strip } := by
    rw [Parameterize.printed, if_pos strips.1]
  have saved := tariff.total_map_strip strips.2
  have trail := tariff.trail_map_strip message.arguments message.error.toList
  -- A single argument that is stripped weighs less than half of what it did.
  have single {only : Expr} (taken : (settings.printed message).arguments = [only]) :
      2 * tariff.weight only + 100 + 2 * total tariff.weight message.error.toList ≤
        tariff.trail (message.arguments ++ message.error.toList) := by
    rw [printed] at taken
    obtain ⟨argument, whole, rfl⟩ := List.map_eq_singleton_iff.mp taken
    have found : (Parameterize.stripped? argument).isSome = true := by
      rw [whole] at strips
      simpa using strips.2
    have := tariff.weight_strip found
    have := (tariff.trail_cons_le argument message.error.toList).1
    have attached : tariff.trail message.error.toList = 2 * total tariff.weight message.error.toList := by
      cases message.error <;> simp [Tariff.trail]
    rw [whole, List.singleton_append]
    omega
  rw [List.append_assoc, tariff.load_append textless]
  have isText : (Expr.string message.template).isText = true := rfl
  obtain ⟨only, sole, written⟩ | ⟨empty, -⟩ | ⟨only, -, taken, alone, -, written⟩ | ⟨-, -, -, written⟩ :=
    (settings.printed message).templateArguments_cases
  · have := single (Message.soleString?_eq_some_iff.mp sole).2.1
    have := tariff.load_le ([only] ++ message.error.toList)
    rw [written]
    rw [total_append, total_cons, total_nil] at this
    omega
  · rw [printed, List.map_eq_nil_iff] at empty
    rw [empty] at strips
    cases strips.2
  · have := single taken
    have wrapped : tariff.weight (.objectArray [only]) = tariff.weight only + 1 :=
      tariff.weight_newArray _ [only]
    have := tariff.trail_le ([.objectArray [only]] ++ message.error.toList)
    rw [written, printed, List.cons_append, tariff.load_text isText]
    rw [total_append, total_cons, total_nil, wrapped] at this
    omega
  · rw [written, printed, List.cons_append, tariff.load_text isText]
    dsimp only
    omega

/-- A literal message from which arguments are stripped is lighter with what follows it. -/
theorem load_stripped_le (tariff : Tariff) {raw : String} {trailing : List Expr} {message : Message}
    (template : Message.ofTemplate? framework.templateStyle raw trailing = some message)
    (strips : settings.stripToString = true ∧
      message.arguments.any (Parameterize.stripped? · |>.isSome) = true)
    (written : event.Written framework severity name arguments)
    (shown : event.message = settings.printed message)
    (textless : ∀ expr ∈ event.marker.toList, expr.isText = false) :
    tariff.load arguments + 98 ≤
      2 * total tariff.weight event.marker.toList + tariff.trail trailing := by
  have error : event.message.error = message.error := by rw [shown, settings.error_printed]
  have taken : event.message.arguments = message.arguments.map Parameterize.strip := by
    rw [shown, Parameterize.printed, if_pos strips.1]
  obtain ⟨error, -, -, rfl⟩ | ⟨-, style, read⟩ | ⟨-, style, parameters, given, read⟩ :=
    Message.ofTemplate?_cases template
  · cases strips.2
  · have whole : trailing = message.arguments ++ message.error.toList := by
      obtain ⟨front, last, rfl, -, -, rfl⟩ | ⟨-, rfl⟩ := Message.ofArguments?_cases read
      · rfl
      · exact (List.append_nil trailing).symm
    have bound := tariff.load_template_le strips textless
    cases written with
    | template =>
      rw [whole, shown]
      rw [shown] at error
      rw [error]
      exact bound
    | joined other => exact absurd (style.symm.trans other) (by decide)
    | attached other => exact absurd (style.symm.trans other) (by decide)
    | whole other => exact absurd (style.symm.trans other) (by decide)
    | indexed other => exact absurd (style.symm.trans other) (by decide)
  · obtain ⟨alone, -, within, inOrder⟩ := Indexed.arguments_message? read
    have same : message.arguments = parameters := by
      obtain ⟨argument, member, found⟩ := List.any_eq_true.mp strips.2
      obtain ⟨receiver, found⟩ := Option.isSome_iff_exists.mp found
      obtain ⟨method, rfl⟩ := Parameterize.stripped?_eq_some found
      exact inOrder ⟨_, within _ member, rfl⟩
    have held : 2 * total tariff.weight parameters ≤ tariff.trail trailing := by
      obtain ⟨element, rfl⟩ | ⟨parameter, rfl, rfl, -⟩ := Message.parameters?_cases given
      · simp only [trail, List.isEmpty_nil, Bool.true_or, if_true, weight_newArray]
        omega
      · simp [trail]
    have saved := tariff.total_map_strip strips.2
    have bound := (written.total_le tariff.valuation_weight).1
    have := tariff.load_le arguments
    rw [taken, error, alone, Option.toList_none, total_nil] at bound
    rw [same] at saved bound
    omega

/-- Of a message that is put together either a request or a call for a text comes off, or it is written
as it is. -/
theorem printed_saves (tariff : Tariff) {style : TemplateStyle} {collapse : Bool} {operand : Expr}
    {trailing : List Expr} {found : Message.Extracted}
    (read : Message.extract? style collapse operand trailing = some found)
    (other : operand.operandKind ≠ .literal)
    (changes : found.isCanonical = false ∨ settings.stripToString = true ∧
      found.message.arguments.any (Parameterize.stripped? · |>.isSome) = true) :
    total tariff.weight (settings.printed found.message).arguments +
        total tariff.weight found.message.error.toList + 100 ≤
      tariff.weight operand + total tariff.weight trailing ∨
    settings.printed found.message = found.message ∧ found.isCanonical = false ∧
      ∀ argument ∈ found.message.arguments, argument ∈ operand.values := by
  have held := (tariff.valuation_weight.extract? read).1
  have printed := tariff.valuation_weight.printed settings found.message
  cases strips : settings.stripToString &&
      found.message.arguments.any (Parameterize.stripped? · |>.isSome) with
  | true =>
    rw [Bool.and_eq_true] at strips
    have := tariff.total_map_strip strips.2
    left
    rw [Parameterize.printed, if_pos strips.1]
    dsimp only
    omega
  | false =>
    obtain saved | values := tariff.extract?_saves read other
    · left
      omega
    · refine .inr ⟨settings.printed_of_not_strips strips, ?_, values⟩
      obtain rewritten | stripped := changes
      · exact rewritten
      · rw [← Bool.and_eq_true, strips] at stripped
        cases stripped

/-- A message that is put together is lighter once it is written with a template. -/
theorem load_joined_lt (tariff : Tariff) (method : ResolvedMethod) {style : TemplateStyle}
    {collapse : Bool} {operand : Expr} {trailing : List Expr} {found : Message.Extracted}
    (read : Message.extract? style collapse operand trailing = some found)
    (other : operand.operandKind ≠ .literal)
    (changes : found.isCanonical = false ∨ settings.stripToString = true ∧
      found.message.arguments.any (Parameterize.stripped? · |>.isSome) = true)
    (written : event.Written framework severity name arguments)
    (templates : framework.templateStyle ≠ .concatenation)
    (uncarried : ¬ (framework.templateStyle = .indexed ∧ found.message.error ≠ none ∧
      found.message.arguments ≠ []))
    (shown : event.message = settings.printed found.message) :
    tariff.load arguments + tariff.messageCharge name arguments (some method) + 1 <
      2 * (total tariff.weight event.marker.toList +
          (tariff.weight operand + total tariff.weight trailing)) +
        8 * (1 + (Expr.jointsList event.marker.toList +
          (operand.joints + Expr.jointsList trailing))) := by
  have error : event.message.error = found.message.error := by rw [shown, settings.error_printed]
  have taken : event.message.arguments = (settings.printed found.message).arguments := by rw [shown]
  obtain ⟨-, joints⟩ := joints_extract? read other
  have held := (tariff.valuation_weight.extract? read).1
  have bound := (written.total_le tariff.valuation_weight).1
  have load := tariff.load_le arguments
  rw [taken, error] at bound
  obtain ⟨text, member, isText⟩ | ⟨string, isString, sole, few⟩ := written.string_cases templates
  · have := tariff.valuation_weight.printed settings found.message
    rw [messageCharge_of_isText isText member]
    omega
  · have := Expr.joints_le_one_of_isString isString
    have := tariff.messageCharge_le_joints name arguments (some method)
    rw [error] at few sole
    obtain saved | ⟨same, rewritten, values⟩ := tariff.printed_saves read other changes
    · omega
    · rw [shown, same] at sole
      have sole : found.message.soleString? = some string := sole.resolve_right uncarried
      obtain ⟨-, alone, -⟩ := Message.soleString?_eq_some_iff.mp sole
      have nonempty : found.message.arguments ≠ [] := by simp [alone]
      have joins := joints_of_isCanonical_eq_false read rewritten nonempty
      have whole := Expr.joints_of_mem_values (values string (by simp [alone])) isString
      rw [same] at bound
      omega

end Written

/-- A marker is at most one concatenation. -/
theorem jointsList_marker_le {framework : Framework} {arguments rest : List Expr}
    {marker : Option Expr} (split : framework.splitMarker arguments = (marker, rest)) :
    Expr.jointsList marker.toList ≤ 1 := by
  cases marker with
  | none => exact Nat.zero_le _
  | some value =>
    have marks := Framework.isMarker_of_splitMarker split
    rw [Framework.isMarker, Option.any_eq_true] at marks
    obtain ⟨markerType, -, typed⟩ := marks
    have := Expr.joints_le_one (Expr.isArray_eq_false (fun _ => rfl) typed)
    simpa [Expr.jointsList] using this

/-- A call that is written with a template is lighter. -/
theorem lightens_parameterize {settings : Parameterize} {expr : Expr} {replacement : Replacement}
    (made : settings.replace? expr = some replacement) :
    tariff.Lightens 1 expr replacement.expr := by
  obtain ⟨call, framework, recognized, logs, rfl⟩ := Parameterize.replace?_cases made
  obtain ⟨templates, uncarried, changes⟩ := Parameterize.replace?_guards made recognized logs
  obtain ⟨event, marker, shown, same⟩ : ∃ event : LogEvent, event.marker = call.marker ∧
      event.message = settings.printed call.message ∧
      LogEvent.emit { call.toLogEvent with message := settings.printed call.message } framework {}
        call.receiver = event.emit framework {} call.receiver :=
    ⟨{ call.toLogEvent with message := settings.printed call.message }, rfl, rfl, rfl⟩
  rw [same]
  obtain ⟨name, level, operand, rest, found, shape, rfl, resolved, place, split, read, message,
    canonical⟩ := LogCall.recognize?_logs recognized logs
  rw [message] at shown uncarried changes
  rw [canonical] at changes
  rw [← marker] at split ⊢
  obtain ⟨newName, arguments, expr, written⟩ := event.written_emit framework {} call.receiver
  have supported := SeverityPolicy.supports_resolve {} event.severity framework
  obtain ⟨newShape, newFound, -⟩ := written.find? supported
  obtain ⟨fqn, oldFound⟩ := resolveSignature?_eq_some resolved
  have settles (settled : tariff.isSettled name (some call.method) = true) :
      tariff.isSettled newName (some (.onInstance framework.loggerType newName)) = true := by
    cases framework_of_isSettled settled resolved
    exact isSettled_of_find? newFound
  have levelText : ∀ expr ∈ level, expr.isText = false := by
    obtain ⟨-, rfl, -⟩ | ⟨-, -, argument, rfl, known⟩ := place
    · simp
    · obtain ⟨constant, named, -⟩ := Option.bind_eq_some_iff.mp known
      simpa using isText_of_levelName? named
  have markerText := isText_of_splitMarker split
  have load : tariff.load (level ++ event.marker.toList ++ operand :: rest) =
      2 * total tariff.weight level + (2 * total tariff.weight event.marker.toList +
        tariff.load (operand :: rest)) := by
    rw [List.append_assoc, tariff.load_append levelText, tariff.load_append markerText]
  have error : event.message.error = found.message.error := by rw [shown, settings.error_printed]
  rw [expr, Expr.call]
  refine lightens_call (Signature.not_mem_tellingNames oldFound)
    (Signature.not_mem_tellingNames newFound) (fun clean => ?_) fun _ => tariff.price_lt settles ?_
  · have := (Expr.valuation_hollowAccessors.extract? read).1
    have := Expr.valuation_hollowAccessors.printed settings found.message
    have held := (written.total_le Expr.valuation_hollowAccessors).1
    rw [shown, settings.error_printed] at held
    simp only [total_append, total_cons] at clean
    omega
  · obtain ⟨raw, literal, template, always⟩ | ⟨other, -⟩ := Message.extract?_cases read
    · have strips := changes.resolve_left (by simp [always])
      have text : operand.isText = true := by rw [Expr.isText, literal]; rfl
      have := tariff.load_stripped_le template strips written shown markerText
      have := tariff.charge_template_le (.onInstance framework.loggerType newName) written supported
        templates (jointsList_marker_le split) (jointsList_error_le fun value attached =>
          Message.throwable_extract? read (error ▸ attached))
      rw [load, tariff.load_text text]
      omega
    · have := tariff.load_joined_lt (.onInstance framework.loggerType newName) read other changes
        written templates uncarried shown
      have := written.charge_le supported tariff (some (.onInstance framework.loggerType newName))
      -- Nothing in the call is a text, so all its arguments count twice.
      have operandText := Expr.isText_of_operandKind other
      have restText : ∀ expr ∈ rest, expr.isText = false := fun expr member =>
        Expr.isText_of_isThrowable ((joints_extract? read other).1 expr member)
      have textless : ∀ expr ∈ level ++ event.marker.toList ++ operand :: rest, expr.isText = false :=
        List.forall_mem_append.mpr ⟨List.forall_mem_append.mpr ⟨levelText, markerText⟩,
          List.forall_mem_cons.mpr ⟨operandText, restText⟩⟩
      rw [load, Tariff.load, operandText, if_neg Bool.false_ne_true, tariff.load_of_textless restText,
        charge.eq_1 tariff name, messageCharge_of_textless resolved templates textless,
        Expr.jointsList_append, Expr.jointsList_append, Expr.jointsList]
      omega

end Tariff

end LogCalls
