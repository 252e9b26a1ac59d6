import LogCalls.Configuration
import LogCalls.Proofs.Convergence.Messages
import LogCalls.Proofs.Emission.Factory
import LogCalls.Proofs.Rule.Changes

/-! # Replaced calls get lighter

Each rule for expressions replaces a recognised call by a lighter one. -/

namespace LogCalls

variable {signature : Signature}

/-- The names of the calls that the form of an expression or an exception depends on. -/
def Expr.tellingNames : List String :=
  ["toString", "getName", "getCanonicalName"] ++ errorAccessors

/-- Methods with such names are not recognised. -/
theorem Signature.not_mem_tellingNames {declaringType name : String}
    (found : find? declaringType name = some signature) : name ∉ Expr.tellingNames := by
  have untold : ∀ known ∈ knownNames, known ∉ Expr.tellingNames := by decide
  exact untold name (mem_knownNames found)

namespace Tariff

variable {error : Expr}
  {expr argument : Expr} {framework : Framework} {replacement : Replacement} {owner : String}
  {key : LoggerKey} {tariff : Tariff}

/-! ## Calls -/

section Call

variable {shape : CallShape} {select newSelect : Option Expr} {name newName : String}
  {arguments newArguments : List Expr} {method newMethod : Option ResolvedMethod}

/-- The hollow requests in a call with another name are those in its parts. -/
theorem hollowAccessors_methodCall (other : name ∉ Expr.tellingNames) :
    (Expr.methodCall select name arguments method).hollowAccessors =
      total Expr.hollowAccessors select.toList + total Expr.hollowAccessors arguments := by
  cases select with
  | none => simp [Expr.hollowAccessors, Expr.hollowAccessorsList_eq_total]
  | some select =>
    have asks : Expr.asksHollow select name arguments = false := by
      have : name ∉ Expr.errorAccessors := fun member => other (List.mem_append_right _ member)
      simp [Expr.asksHollow, this]
    simp [Expr.hollowAccessors, Expr.hollowAccessorsList_eq_total, asks]

theorem form_methodCall_eq_plain (other : name ∉ Expr.tellingNames) :
    (Expr.methodCall select name arguments method).form tariff.owner = .plain := by
  simp only [Expr.tellingNames, List.mem_append, List.mem_cons, List.not_mem_nil, or_false,
    not_or] at other
  simp [Expr.form_methodCall, other, Expr.Form.plain]

/-- A call is replaced by a lighter one if no hollow requests come in and its price goes down. -/
theorem lightens_call (other : name ∉ Expr.tellingNames) (newOther : newName ∉ Expr.tellingNames)
    (sound : total Expr.hollowAccessors select.toList + total Expr.hollowAccessors arguments = 0 →
      total Expr.hollowAccessors newSelect.toList + total Expr.hollowAccessors newArguments = 0)
    (cheaper : tariff.Admits (total Expr.hollowAccessors arguments) →
      tariff.price newName newArguments newMethod
          (total tariff.weight newSelect.toList + tariff.load newArguments) <
        tariff.price name arguments method
          (total tariff.weight select.toList + tariff.load arguments)) :
    tariff.Lightens 1 (.methodCall select name arguments method)
      (.methodCall newSelect newName newArguments newMethod) where
  sound := by
    rw [hollowAccessors_methodCall other, hollowAccessors_methodCall newOther]
    exact sound
  lighter := by
    rw [hollowAccessors_methodCall other, weight_methodCall, weight_methodCall]
    exact fun admits => cheaper (admits.mono (by omega))
  form := by rw [form_methodCall_eq_plain other, form_methodCall_eq_plain newOther]

/-- A call of the target framework is recognised as one. -/
theorem framework_of_isSettled {method : ResolvedMethod}
    (settled : tariff.isSettled name (some method) = true)
    (resolved : resolveSignature? select name method = some signature) :
    signature.framework = some tariff.target := by
  rw [isSettled, Option.any_some, Option.any_eq_true] at settled
  obtain ⟨found, known, same⟩ := settled
  rw [resolveSignature?_of_find? known] at resolved
  cases resolved
  simpa using same

theorem isSettled_of_find? {method : ResolvedMethod}
    (found : Signature.find? method.declaringType name = some ⟨some tariff.target, shape⟩) :
    tariff.isSettled name (some method) = true := by
  rw [isSettled, Option.any_some, found]
  simp

/-- A call that does not leave the target framework does not count more for the same message. -/
theorem messageCharge_le (settles : tariff.isSettled name method = true →
      tariff.isSettled newName newMethod = true) (arguments : List Expr) :
    tariff.messageCharge newName arguments newMethod ≤
      tariff.messageCharge name arguments method := by
  unfold messageCharge
  cases settled : tariff.isSettled name method with
  | false =>
    rw [Bool.false_and, Bool.or_false]
    cases arguments.any (·.isText) with
    | true => exact Nat.le_refl _
    | false => split <;> simp
  | true => exact Nat.le_of_eq (by rw [settles settled])

/-- A call that does not ask for a logger counts nothing extra for its key. -/
theorem keyCharge_eq_zero (named : name ≠ "getLogger" ∧ name ≠ "getLog") :
    tariff.keyCharge name arguments = 0 := by
  simp [keyCharge, named]

/-- A call that is not recognised as one with a level counts nothing extra for that. -/
theorem levelCharge_eq_zero {method : ResolvedMethod}
    (resolved : resolveSignature? select name method = some signature)
    (other : signature ≠ ⟨some .jul, .levelArgument⟩) :
    levelCharge name arguments (some method) = 0 := by
  unfold levelCharge
  rw [if_neg]
  simp only [Bool.and_eq_true, beq_iff_eq, Option.any_some]
  rintro ⟨⟨rfl, -⟩, declared⟩
  have found : Signature.find? method.declaringType "log" = some ⟨some .jul, .levelArgument⟩ := by
    rw [declared]
    decide
  rw [resolveSignature?_of_find? found] at resolved
  cases resolved
  exact other rfl

/-- What the message of a call counts extra that belongs to a framework with templates. -/
theorem messageCharge_eq {method : ResolvedMethod}
    (resolved : resolveSignature? select name method = some ⟨some framework, shape⟩)
    (style : framework.templateStyle ≠ .concatenation) :
    tariff.messageCharge name arguments (some method) =
      if arguments.any (·.isText) then 0 else 8 * (1 + Expr.jointsList arguments) := by
  have unexempt :
      (tariff.isSettled name (some method) && tariff.target.templateStyle == .concatenation) =
        false := by
    cases settled : tariff.isSettled name (some method) with
    | false => rfl
    | true =>
      have same := framework_of_isSettled settled resolved
      cases same
      simpa using style
  rw [messageCharge, unexempt, Bool.or_false]

/-- Without a text among the arguments the message counts for each of its concatenations. -/
theorem messageCharge_of_textless {method : ResolvedMethod}
    (resolved : resolveSignature? select name method = some ⟨some framework, shape⟩)
    (style : framework.templateStyle ≠ .concatenation)
    (textless : ∀ expr ∈ arguments, expr.isText = false) :
    tariff.messageCharge name arguments (some method) = 8 * (1 + Expr.jointsList arguments) := by
  have noText : arguments.any (·.isText) = false := by simpa using textless
  rw [messageCharge_eq resolved style, noText, if_neg Bool.false_ne_true]

/-- A call that keeps its method gets lighter with its arguments and what its message counts extra. -/
theorem lightens_arguments {method : ResolvedMethod}
    (resolved : resolveSignature? select name method = some ⟨some framework, shape⟩)
    (style : framework.templateStyle = .anonymous) (notFactory : shape ≠ .factory)
    (sound : total Expr.hollowAccessors arguments = 0 → total Expr.hollowAccessors newArguments = 0)
    (cheaper : tariff.Admits (total Expr.hollowAccessors arguments) →
      tariff.load newArguments + tariff.messageCharge name newArguments (some method) <
        tariff.load arguments + tariff.messageCharge name arguments (some method)) :
    tariff.Lightens 1 (.methodCall select name arguments (some method))
      (.methodCall select name newArguments (some method)) := by
  obtain ⟨fqn, found⟩ := resolveSignature?_eq_some resolved
  have other := Signature.not_mem_tellingNames found
  have named : name ≠ "getLogger" ∧ name ≠ "getLog" := by
    refine ⟨fun same => ?_, fun same => ?_⟩
    · exact notFactory ((Signature.find?_factory_iff found).mpr (.inl same))
    · exact notFactory ((Signature.find?_factory_iff found).mpr (.inr same))
  have notJul : (⟨some framework, shape⟩ : Signature) ≠ ⟨some .jul, .levelArgument⟩ := by
    rintro ⟨⟩
    cases style
  refine lightens_call other other (fun clean => ?_) fun admits => ?_
  · have := sound (by omega)
    omega
  · have := cheaper admits
    refine tariff.price_lt id ?_
    simp only [charge, keyCharge_eq_zero named, levelCharge_eq_zero resolved notJul]
    omega

/-- A marker is no text. -/
theorem isText_of_splitMarker {rest : List Expr} {marker : Option Expr}
    (split : framework.splitMarker arguments = (marker, rest)) :
    ∀ expr ∈ marker.toList, expr.isText = false := by
  intro expr member
  rw [Option.mem_toList] at member
  cases member
  cases text : expr.isText with
  | false => rfl
  | true =>
    obtain ⟨raw, literal⟩ := Option.isSome_iff_exists.mp text
    have marks := Framework.isMarker_of_splitMarker split
    rw [Framework.isMarker_of_stringLiteral? literal] at marks
    cases marks

theorem messageCharge_le_joints (tariff : Tariff) (name : String) (arguments : List Expr)
    (method : Option ResolvedMethod) :
    tariff.messageCharge name arguments method ≤ 8 * (1 + Expr.jointsList arguments) := by
  unfold messageCharge
  split <;> omega

/-- With a text among the arguments nothing is counted extra for the message. -/
theorem messageCharge_of_isText {text : Expr} (isText : text.isText = true)
    (member : text ∈ arguments) : tariff.messageCharge name arguments method = 0 := by
  have found : arguments.any (·.isText) = true := List.any_eq_true.mpr ⟨text, member, isText⟩
  rw [messageCharge, found, Bool.true_or, if_pos rfl]

/-- A call that is not one of the target framework counts all its parts twice, and a hundred. -/
theorem le_weight_of_unsettled (unsettled : tariff.isSettled name method = false)
    (select : Option Expr) (arguments : List Expr) :
    2 * (total tariff.weight select.toList + tariff.load arguments) + 100 ≤
      tariff.weight (.methodCall select name arguments method) := by
  rw [weight_methodCall, price, unsettled]
  simp only [Bool.false_eq_true, if_false]
  omega

/-- So does a call that is not recognised. -/
theorem le_weight_of_not_mem_knownNames (tariff : Tariff) (unknown : name ∉ Signature.knownNames)
    (select : Option Expr) (arguments : List Expr) (method : Option ResolvedMethod) :
    2 * (total tariff.weight select.toList + tariff.load arguments) + 100 ≤
      tariff.weight (.methodCall select name arguments method) := by
  refine le_weight_of_unsettled ?_ select arguments
  cases method with
  | none => rfl
  | some resolved =>
    have unfound : Signature.find? resolved.declaringType name = none := by
      cases found : Signature.find? resolved.declaringType name with
      | none => rfl
      | some signature => exact absurd (Signature.mem_knownNames found) unknown
    rw [isSettled, Option.any_some, unfound, Option.any_none]

end Call

/-! ## Constant messages -/

/-- An operand that becomes a constant message is a call that is not recognised, and no more than its
parts remains behind the text. -/
theorem constant?_held {operand : Expr} {trailing replaced : List Expr}
    (made : ConstantMessage.constant? operand trailing = some replaced) :
    ∃ select name arguments method text kept,
      operand.bare = .methodCall select name arguments method ∧ name ∉ Signature.knownNames ∧
      replaced = .string text :: kept ∧
      ∀ value, total value kept ≤ total value select.toList + total value arguments := by
  obtain ⟨format, template, parameters, called, -, rfl⟩ | ⟨-, value, called, rfl⟩ |
    ⟨-, receiver, method, bare, rfl⟩ := ConstantMessage.constant?_cases made
  · obtain ⟨select, resolved, bare⟩ := ConstantMessage.stringCall?_eq_some called
    refine ⟨select, _, _, _, template, parameters, bare, by decide, rfl, fun value => ?_⟩
    rw [total_cons]
    omega
  · obtain ⟨select, resolved, bare⟩ := ConstantMessage.stringCall?_eq_some called
    exact ⟨select, _, _, _, "Exception", [value], bare, by decide, rfl, fun value => by omega⟩
  · exact ⟨some receiver, _, _, _, _, [receiver], bare, by decide, rfl, fun value => by simp⟩

/-- A call with a constant message is lighter. -/
theorem lightens_constantMessage (made : ConstantMessage.replace? expr = some replacement) :
    tariff.Lightens 1 expr replacement.expr := by
  obtain ⟨select, name, arguments, method, framework, severity, marker, operand, trailing, replaced,
    rfl, resolved, style, split, constant, rfl⟩ := ConstantMessage.replace?_cases made
  obtain ⟨inner, called, parts, resolvedInner, text, kept, bare, unknown, rfl, held⟩ :=
    constant?_held constant
  have textless := isText_of_splitMarker split
  have whole := Framework.eq_append_of_splitMarker split
  have notText : operand.isText = false := by
    rw [Expr.isText, bare]
    rfl
  rw [whole, List.append_assoc, List.cons_append]
  refine lightens_arguments resolved style (by simp) (fun clean => ?_) fun _ => ?_
  · have hollow := Expr.valuation_hollowAccessors
    have := held Expr.hollowAccessors
    have := hollow.call inner called parts resolvedInner
    rw [← bare, hollow.bare] at this
    rw [total_append, total_cons] at clean
    have : (Expr.string text).hollowAccessors = 0 := rfl
    rw [total_append, total_cons, total_append]
    omega
  · have := held tariff.weight
    have := tariff.total_le_load parts
    have := tariff.le_weight_of_not_mem_knownNames unknown inner parts resolvedInner
    rw [← bare, tariff.valuation_weight.bare] at this
    have := tariff.trail_append_le kept trailing
    have := tariff.trail_le_load trailing
    have isText : (Expr.string text).isText = true := rfl
    rw [tariff.load_append textless, tariff.load_append textless, tariff.load_text isText, load,
      notText, messageCharge_of_isText isText (by simp), if_neg Bool.false_ne_true]
    omega

/-! ## Exceptions -/

/-- A request for the message of an exception weighs more than twice as much as the exception. -/
theorem le_weight_of_accessedError (tariff : Tariff) (asks : expr.accessedError? = some error) :
    2 * tariff.weight error + 100 ≤ tariff.weight expr := by
  obtain ⟨accessor, called, bare, named⟩ := Expr.accessedError?_eq_some asks
  have unknown : ∀ name ∈ Expr.errorAccessors, name ∉ Signature.knownNames := by decide
  have := tariff.le_weight_of_not_mem_knownNames (unknown accessor named) (some error) [] called
  rw [← bare, tariff.valuation_weight.bare] at this
  simp only [Option.toList_some, total_cons, total_nil] at this
  omega

theorem isText_of_accessedError (asks : expr.accessedError? = some error) :
    expr.isText = false := by
  obtain ⟨accessor, called, bare, -⟩ := Expr.accessedError?_eq_some asks
  rw [Expr.isText, bare]
  rfl

/-- None of the requests is one for the text of an array. -/
theorem isHollow_of_accessedError (asks : expr.accessedError? = some error) :
    expr.isHollow = false := by
  obtain ⟨accessor, called, bare, named⟩ := Expr.accessedError?_eq_some asks
  cases expr with
  | methodCall select name arguments method =>
    cases bare
    have other : ∀ name ∈ Expr.errorAccessors, (name == "toString") = false := by decide
    rw [Expr.isHollow, other accessor named]
    rfl
  | newArray element elements => cases bare
  | _ => rfl

theorem isHollow_accessedError (asks : expr.accessedError? = some error)
    (clean : expr.hollowAccessors = 0) : error.isHollow = false := by
  obtain ⟨accessor, called, bare, named⟩ := Expr.accessedError?_eq_some asks
  rw [← Expr.valuation_hollowAccessors.bare, bare, Expr.hollowAccessors] at clean
  have unasked : ¬ Expr.asksHollow error accessor [] = true := by
    intro asked
    rw [if_pos asked] at clean
    omega
  simpa [Expr.asksHollow, named] using unasked

/-- A call that passes the exception as well is lighter, as the exception is no hollow array. -/
theorem lightens_completeException (completes : tariff.completes = true)
    (made : CompleteException.replace? expr = some replacement) :
    tariff.Lightens 1 expr replacement.expr := by
  obtain ⟨select, name, arguments, method, framework, severity, marker, rest, completed, rfl,
    resolved, style, split, complete, rfl⟩ := CompleteException.replace?_cases made
  obtain ⟨last, error, asks, shape⟩ := CompleteException.complete?_cases complete
  have textless := isText_of_splitMarker split
  rw [Framework.eq_append_of_splitMarker split]
  have heavy := tariff.le_weight_of_accessedError asks
  have held := Expr.valuation_hollowAccessors.accessedError asks
  refine lightens_arguments resolved style (by simp) (fun clean => ?_) fun admits => ?_
  · obtain ⟨rfl, rfl⟩ | ⟨template, middle, rfl, rfl | rfl⟩ := shape
    all_goals
      have (raw : String) : (Expr.string raw).hollowAccessors = 0 := rfl
      simp only [total_append, total_cons, total_nil, List.cons_append, this] at clean ⊢
      omega
  · have isText (raw : String) : (Expr.string raw).isText = true := rfl
    have member : last ∈ rest := by
      obtain ⟨rfl, -⟩ | ⟨template, middle, rfl, -⟩ := shape
      · exact List.mem_singleton_self last
      · simp
    have errorOnce : (if tariff.spreads && error.isHollow then 2 else 1) = 1 := by
      cases spreads : tariff.spreads with
      | false => rfl
      | true =>
        have clean := (total_eq_zero_iff _).mp (admits completes spreads) last
          (List.mem_append_right _ member)
        rw [isHollow_accessedError asks clean]
        rfl
    have lastOnce : (if tariff.spreads && last.isHollow then 2 else 1) = 1 := by
      rw [isHollow_of_accessedError asks, Bool.and_false]
      rfl
    obtain ⟨rfl, rfl⟩ | ⟨template, middle, rfl, written⟩ := shape
    · have := tariff.trail_le [error]
      rw [tariff.load_append textless, tariff.load_append textless, tariff.load_text (isText ""),
        load, isText_of_accessedError asks, messageCharge_of_isText (isText "") (by simp),
        if_neg Bool.false_ne_true]
      rw [total_cons, total_nil] at this
      omega
    · have old : tariff.load (marker.toList ++ (.string template :: middle ++ [last])) =
          2 * total tariff.weight marker.toList +
            (total tariff.weight middle + 2 * tariff.weight last) := by
        rw [tariff.load_append textless, List.cons_append, tariff.load_text (isText template),
          trail_concat, lastOnce, Nat.one_mul]
      rw [old]
      obtain rfl | rfl := written
      · rw [tariff.load_append textless, List.cons_append, tariff.load_text (isText template),
          ← List.singleton_append, ← List.append_assoc, trail_concat, errorOnce, total_append, total_cons,
          total_nil, messageCharge_of_isText (isText template) (by simp)]
        omega
      · rw [tariff.load_append textless, List.cons_append, tariff.load_text (isText template),
          trail_concat, errorOnce, messageCharge_of_isText (isText template) (by simp)]
        omega

/-! ## Arrays -/

/-- Behind a text, the elements of an array are lighter than the array. -/
theorem trail_spread (spreads : tariff.spreads = true) {element : JavaType}
    (objects : element.typeName = ClassName.object) (front elements : List Expr) :
    tariff.trail (front ++ elements) < tariff.trail (front ++ [.newArray element elements]) := by
  have array : (Expr.newArray element elements).isHollow = Expr.endsHollow elements := by
    rw [Expr.isHollow, objects, beq_self_eq_true, Bool.true_and]
  rw [trail_concat, array, weight_newArray, spreads, Bool.true_and]
  obtain rfl | ⟨init, last, rfl⟩ := elements.eq_nil_or_concat
  · -- Nothing is left of the array, and the argument before it becomes the last.
    have := tariff.trail_le front
    rw [List.append_nil, Expr.endsHollow, if_pos rfl]
    omega
  · rw [List.concat_eq_append, Expr.endsHollow_append init (List.cons_ne_nil last []),
      Expr.endsHollow_singleton, ← List.append_assoc, trail_concat, spreads, Bool.true_and,
      total_append, total_append, total_cons, total_nil, Nat.mul_add]
    split <;> omega

/-- A call whose array of parameters is spread is lighter. -/
theorem lightens_spreadArray (spreads : tariff.spreads = true)
    (made : SpreadArray.replace? expr = some replacement) :
    tariff.Lightens 1 expr replacement.expr := by
  obtain ⟨select, name, leading, element, elements, found, index, rfl, objects, stands, -, -, rfl⟩ :=
    SpreadArray.replace?_cases made
  obtain ⟨method, framework, shape, offset, rfl, resolved, style, known, -⟩ :=
    SpreadArray.messageIndex?_cases stands
  have notFactory : shape ≠ .factory := by
    rintro rfl
    cases known
  refine lightens_arguments resolved style notFactory (fun clean => ?_) fun _ => ?_
  · rw [total_append, total_cons, total_nil, Expr.valuation_hollowAccessors.newArray] at clean
    rw [total_append]
    omega
  · cases found : leading.find? (·.isText) with
    | some text =>
      obtain ⟨isText, front, back, rfl, textless⟩ := List.find?_eq_some_iff_append.mp found
      have lighter := trail_spread spreads objects back elements
      have textless : ∀ expr ∈ front, expr.isText = false := by simpa using textless
      rw [messageCharge_of_isText isText (by simp), messageCharge_of_isText isText (by simp),
        List.append_assoc, List.append_assoc, tariff.load_append textless,
        tariff.load_append textless, List.cons_append, List.cons_append, tariff.load_text isText,
        tariff.load_text isText]
      omega
    | none =>
      have textless : ∀ expr ∈ leading, expr.isText = false := by
        simpa using List.find?_eq_none.mp found
      have := tariff.load_le elements
      have notText : (Expr.newArray element elements).isText = false := rfl
      have extras : tariff.messageCharge name (leading ++ elements) (some method) ≤
          tariff.messageCharge name (leading ++ [.newArray element elements]) (some method) := by
        have new := tariff.messageCharge_le_joints name (leading ++ elements) (some method)
        rw [messageCharge_of_textless resolved (by simp [style]) (List.forall_mem_append.mpr
          ⟨textless, List.forall_mem_singleton.mpr notText⟩), Expr.jointsList_append,
          Expr.jointsList, Expr.jointsList, Expr.joints, Nat.add_zero]
        rwa [Expr.jointsList_append] at new
      have array : tariff.load [.newArray element elements] =
          2 * (total tariff.weight elements + 1) := by
        rw [load, notText, if_neg Bool.false_ne_true, weight_newArray, load, Nat.add_zero]
      rw [tariff.load_append textless, tariff.load_append textless, array]
      omega

/-! ## Levels -/

/-- Frameworks name the methods for different severities differently. -/
theorem isMethodFor_methodFor {source target : Severity}
    (different : source ≠ target) (supported : framework.supports target = true) :
    isMethodFor source (framework.methodFor target) = false := by
  revert different supported
  cases framework <;> cases source <;> cases target <;> decide

/-- A call whose level is changed is lighter. -/
theorem lightens_changeLevel {settings : ChangeLevel} (source : tariff.source = some settings.source)
    (changes : settings.source ≠ settings.target)
    (made : settings.replace? expr = some replacement) :
    tariff.Lightens 1 expr replacement.expr := by
  obtain ⟨select, arguments, method, framework, rfl, resolved, supported, rfl⟩ :=
    ChangeLevel.replace?_cases made
  obtain ⟨fqn, found⟩ := resolveSignature?_eq_some resolved
  have supportedSource : framework.supports settings.source = true := by
    obtain ⟨-, ⟨supported, -⟩ | ⟨rfl, other⟩⟩ := Signature.find?_leveled found
    · exact supported
    · revert other
      cases settings.source <;> decide
  have named : framework.methodFor settings.target ∉ Expr.tellingNames ∧
      framework.methodFor settings.target ≠ "log" ∧
      framework.methodFor settings.target ≠ "getLogger" ∧
      framework.methodFor settings.target ≠ "getLog" := by
    cases framework <;> cases settings.target <;> decide
  have settles (settled : tariff.isSettled (framework.methodFor settings.source) (some method) =
      true) : tariff.isSettled (framework.methodFor settings.target)
        (some { method with name := framework.methodFor settings.target }) = true := by
    have same := framework_of_isSettled settled resolved
    cases same
    rw [isSettled, Option.any_some, Option.any_eq_true] at settled
    obtain ⟨signature, known, -⟩ := settled
    rw [resolveSignature?_of_find? known] at resolved
    cases resolved
    have declared := (Signature.find?_leveled known).1
    exact isSettled_of_find? (Signature.find?_methodFor_of_mem declared supported)
  refine lightens_call (Signature.not_mem_tellingNames found) named.1 id fun _ => ?_
  refine tariff.price_lt settles ?_
  have old : tariff.severityCharge (framework.methodFor settings.source) = 1 := by
    have isMethod : isMethodFor settings.source (framework.methodFor settings.source) = true := by
      refine List.any_eq_true.mpr ⟨framework, ?_, by simp [supportedSource]⟩
      cases framework <;> decide
    rw [severityCharge, source, Option.any_some, isMethod]
    rfl
  have new : tariff.severityCharge (framework.methodFor settings.target) = 0 := by
    rw [severityCharge, source, Option.any_some, isMethodFor_methodFor changes supported]
    rfl
  have message := messageCharge_le settles arguments
  have level : levelCharge (framework.methodFor settings.target) arguments
      (some { method with name := framework.methodFor settings.target }) = 0 := by
    simp [levelCharge, named]
  rw [charge, charge, old, new, level, keyCharge_eq_zero named.2.2]
  omega

/-- A level is no text. -/
theorem isText_of_levelName? {level : Expr} {constant : String}
    (named : framework.levelName? level = some constant) : level.isText = false := by
  unfold Framework.levelName? at named
  obtain ⟨levelType, -, rest⟩ := Option.bind_eq_some_iff.mp named
  split at rest
  · rename_i bare
    rw [Expr.isText, bare]
    rfl
  · cases rest

/-- An argument in front that is no text does not make the message count less. -/
theorem messageCharge_le_cons {name : String} {method : Option ResolvedMethod} {first : Expr}
    (notText : first.isText = false) (arguments : List Expr) :
    tariff.messageCharge name arguments method ≤
      tariff.messageCharge name (first :: arguments) method := by
  rw [messageCharge, messageCharge, List.any_cons, notText, Bool.false_or, Expr.jointsList]
  split <;> omega

theorem severityCharge_le (tariff : Tariff) (name : String) : tariff.severityCharge name ≤ 1 := by
  unfold severityCharge
  split <;> omega

/-- A level that is given by the method is lighter than one that is an argument. -/
theorem lightens_levelMethod (applies : LevelMethod.isLevelCall expr = true)
    (made : LevelMethod.replace? expr = some replacement) :
    tariff.Lightens 1 expr replacement.expr := by
  unfold LevelMethod.isLevelCall at applies
  split at applies
  · rename_i select level operand resolved
    have declared : resolved.declaringType = Framework.jul.loggerType := by simpa using applies
    obtain ⟨_, _, _, _, _, name, _, ⟨⟩, found, rfl⟩ := LevelMethod.replace?_cases made
    obtain ⟨constant, named, method⟩ := Option.bind_eq_some_iff.mp found
    have levelText := isText_of_levelName? named
    obtain ⟨front, back, whole, -⟩ := List.lookup_eq_some_iff.mp method
    have member : (constant, name) ∈ LevelMethod.methods := by
      rw [whole]
      exact List.mem_append_right front List.mem_cons_self
    have each : ∀ entry ∈ LevelMethod.methods, entry.2 ∉ Expr.tellingNames ∧
        (entry.2 ≠ "getLogger" ∧ entry.2 ≠ "getLog") ∧
        (Signature.find? Framework.jul.loggerType entry.2).any (·.framework == some .jul) =
          true := by decide
    obtain ⟨other, notFactory, recognized⟩ := each _ member
    have settles (settled : tariff.isSettled "log" (some resolved) = true) :
        tariff.isSettled name (some { resolved with name }) = true := by
      have known : Signature.find? Framework.jul.loggerType "log" =
          some ⟨some .jul, .levelArgument⟩ := by decide
      have target : some Framework.jul = some tariff.target := by
        rw [isSettled, Option.any_some, declared, known] at settled
        simpa using settled
      rw [isSettled, Option.any_some, ← target, declared]
      exact recognized
    refine lightens_call (by decide) other (fun clean => ?_) fun _ => tariff.price_lt settles ?_
    · simp only [total_cons, total_nil] at clean ⊢
      omega
    · have old : levelCharge "log" [level, operand] (some resolved) = 3 := by
        simp [levelCharge, declared]
      have new : levelCharge name [operand] (some { resolved with name }) = 0 := by
        simp [levelCharge]
      have severity : tariff.severityCharge name ≤ 1 := tariff.severityCharge_le name
      have message := messageCharge_le settles [operand]
      have extras : tariff.messageCharge "log" [operand] (some resolved) ≤
          tariff.messageCharge "log" [level, operand] (some resolved) :=
        messageCharge_le_cons levelText [operand]
      have lighter : tariff.load [operand] ≤ tariff.load [level, operand] := by
        rw [load.eq_2 tariff level, levelText, if_neg Bool.false_ne_true]
        omega
      rw [charge, charge, old, new, keyCharge_eq_zero notFactory]
      omega
  · cases applies

/-! ## Loggers -/

theorem isClassOf_iff : expr.isClassOf owner = true ↔ expr.bare = .classLiteral owner := by
  unfold Expr.isClassOf
  split
  · rename_i fqn bare
    simp [bare]
  · rename_i other
    constructor
    · intro impossible
      cases impossible
    · intro bare
      exact absurd bare (other owner)

/-- An expression that names the owner is no stale key. -/
theorem isKeyOf_of_isStale (found : LoggerKey.ofExpr? argument = some key)
    (stale : EnclosingClass.isStale owner key = true) : argument.isKeyOf owner = false := by
  cases own : argument.isKeyOf owner with
  | false => rfl
  | true =>
    unfold Expr.isKeyOf at own
    rw [Bool.or_eq_true] at own
    unfold LoggerKey.ofExpr? at found
    obtain own | own := own
    · rw [isClassOf_iff.mp own] at found
      cases found
      simp [EnclosingClass.isStale] at stale
    · split at own
      · rename_i select name method bare
        obtain ⟨named, own⟩ := Bool.and_eq_true_iff.mp own
        have named : (decide (name = "getName") || decide (name = "getCanonicalName")) = true := by
          simpa using named
        rw [bare] at found
        dsimp only at found
        rw [if_pos named, isClassOf_iff.mp own] at found
        cases found
        simp [EnclosingClass.isStale] at stale
      · cases own

/-- A text is no stale key. -/
theorem isText_of_isStale (found : LoggerKey.ofExpr? argument = some key)
    (stale : EnclosingClass.isStale owner key = true) : argument.isText = false := by
  cases text : argument.isText with
  | false => rfl
  | true =>
    obtain ⟨raw, literal⟩ := Option.isSome_iff_exists.mp text
    have bare := Expr.stringLiteral?_eq_some_iff.mp literal
    have type : argument.staticType = some .string := by
      rw [← argument.staticType_bare, bare]
      rfl
    have name : LoggerKey.ofExpr? argument = some (.name argument) := by
      simp only [LoggerKey.ofExpr?, bare, Expr.string, LoggerKey.ofType?, type]
      rfl
    rw [name] at found
    cases found
    cases stale

/-- The key that replaces another one names the owner and is no heavier. -/
theorem weight_newKey (tariff : Tariff) (owner : String)
    (found : LoggerKey.ofExpr? argument = some key) :
    let newKey := EnclosingClass.newKey owner key (some argument)
    newKey.isKeyOf owner = true ∧ newKey.isText = false ∧ newKey.joints = 0 ∧
      newKey.hollowAccessors = 0 ∧ tariff.weight newKey ≤ tariff.weight argument := by
  intro newKey
  have isClass : (Expr.classLiteral owner).isClassOf owner = true := isClassOf_iff.mpr rfl
  have literal : newKey = .classLiteral owner → newKey.isKeyOf owner = true ∧
      newKey.isText = false ∧ newKey.joints = 0 ∧ newKey.hollowAccessors = 0 ∧
        tariff.weight newKey ≤ tariff.weight argument := by
    intro same
    rw [same]
    exact ⟨by rw [Expr.isKeyOf, isClass, Bool.true_or], rfl, rfl, rfl, Nat.zero_le _⟩
  cases key with
  | className fqn =>
    obtain ⟨_, ⟨⟨⟩, -⟩ | ⟨⟨⟩, select, name, method, bare, named, inner⟩⟩ | ⟨-, other | other⟩ :=
      LoggerKey.ofExpr?_cases found
    · have same : newKey = .methodCall (some (.classLiteral owner)) name [] method := by
        simp only [newKey, EnclosingClass.newKey, Option.map_some, bare]
      -- Both class objects weigh nothing.
      have nothing : tariff.weight select = 0 := by
        rw [← tariff.valuation_weight.bare, inner, weight]
      have forms := Expr.form_methodCall owner (some (.classLiteral owner)) name [] method
      have own : (Expr.methodCall (some (.classLiteral owner)) name [] method).isKeyOf owner = true :=
        (congrArg Expr.Form.isKey forms).trans (by simpa [isClass] using named)
      have hollow : (Expr.methodCall (some (.classLiteral owner)) name [] method).hollowAccessors =
          0 := by
        obtain rfl | rfl := named <;> rfl
      rw [same]
      refine ⟨own, rfl, rfl, hollow, ?_⟩
      exact Nat.le_of_eq
        (by rw [← tariff.valuation_weight.bare argument, bare, weight, weight, nothing, weight])
    · cases other
    · cases other
  | _ => exact literal rfl

/-- A logger that is named after its class is lighter. -/
theorem lightens_enclosingClass {scope : Scope} (owned : scope.current.fqn = tariff.owner)
    (made : EnclosingClass.replace? expr scope = some replacement) :
    tariff.Lightens 1 expr replacement.expr := by
  obtain ⟨factory, select, name, argument, rfl, resolved, found, stale, rfl⟩ :=
    EnclosingClass.replace?_cases made
  rw [owned] at stale ⊢
  have own := isKeyOf_of_isStale found stale
  have notText := isText_of_isStale found stale
  obtain ⟨newOwn, newNotText, newJoints, newHollow, newWeight⟩ :=
    tariff.weight_newKey tariff.owner found
  generalize EnclosingClass.newKey tariff.owner factory.key (some argument) = newKey at *
  obtain ⟨fqn, declared⟩ := resolveSignature?_eq_some resolved
  have other := Signature.not_mem_tellingNames declared
  refine lightens_call other other (fun clean => ?_) fun _ => tariff.price_lt id ?_
  · simp only [total_cons, total_nil] at clean ⊢
    omega
  · have old : tariff.keyCharge name [argument] = 1 := by
      have named := (Signature.find?_factory_iff declared).mp rfl
      simp [keyCharge, named, own]
    have new : tariff.keyCharge name [newKey] = 0 := by simp [keyCharge, newOwn]
    have level (key : Expr) : levelCharge name [key] (some factory.method) = 0 := by
      simp [levelCharge]
    have message : tariff.messageCharge name [newKey] (some factory.method) ≤
        tariff.messageCharge name [argument] (some factory.method) := by
      simp only [messageCharge, List.any_cons, List.any_nil, Bool.or_false, notText, newNotText,
        Bool.false_or, Expr.jointsList, newJoints]
      split <;> omega
    have load (key : Expr) (notText : key.isText = false) :
        tariff.load [key] = 2 * tariff.weight key := by
      rw [load, notText, if_neg Bool.false_ne_true, load.eq_1, Nat.add_zero]
    rw [charge, charge, level, level, old, new, load argument notText, load newKey newNotText]
    omega

end Tariff

end LogCalls
