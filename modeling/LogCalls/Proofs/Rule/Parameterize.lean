import LogCalls.Proofs.Emission.Distribution
import LogCalls.Proofs.Engine.OnePass
import LogCalls.Proofs.Rule.Migrate

/-! # Templates in one pass

The rule for templates is local, and what it writes is canonical: offered again, the call stays as it
is. So one pass is enough, as long as strings are nothing but strings. A string that is a marker as well
is taken for the marker when it is all that is left of a message, and a string that is an exception as
well may be a concatenation that is put in the place of its own text. -/

namespace LogCalls

variable {call : LogCall} {framework : Framework}

/-! ## Strings -/

theorem Framework.mem_all (framework : Framework) : framework ∈ all := by
  cases framework <;> decide

namespace Expr

/-- The expression is no string, or nothing but a string: neither an exception nor a marker. -/
def IsPlain (expr : Expr) : Prop :=
  expr.isString = true →
    expr.isThrowable = false ∧ ∀ framework ∈ Framework.all, framework.isMarker expr = false

instance (expr : Expr) : Decidable expr.IsPlain :=
  inferInstanceAs (Decidable (expr.isString = true →
    expr.isThrowable = false ∧ ∀ framework ∈ Framework.all, framework.isMarker expr = false))

/-- Whether an expression is plain depends on its type. -/
theorem isPlain_congr {expr other : Expr} (same : other.staticType = expr.staticType)
    (plain : expr.IsPlain) : other.IsPlain := by
  simpa only [IsPlain, isString, isThrowable, Framework.isMarker, hasType, same] using plain

theorem isPlain_of_isString_eq_false {expr : Expr} (other : expr.isString = false) : expr.IsPlain := by
  intro string
  rw [other] at string
  cases string

theorem isPlain_of_primitive {expr : Expr} {kind : LogCalls.Primitive}
    (typed : expr.staticType = some (.primitive kind)) : expr.IsPlain := by
  have plain : (Expr.ident "" (.primitive kind)).IsPlain := by
    cases kind <;> decide
  refine isPlain_congr ?_ plain
  exact typed

end Expr

/-! ## Canonical messages -/

namespace Message

variable {style : TemplateStyle} {collapse : Bool} {operand : Expr} {rest : List Expr}
  {found : Extracted}

/-- A message whose operand is a literal is spelled canonically. -/
theorem isCanonical_of_literal (read : extract? style collapse operand rest = some found)
    (literal : operand.operandKind = .literal) : found.isCanonical = true := by
  by_contra rewritten
  obtain joins | ⟨other, -⟩ :=
    extract?_of_isCanonical_eq_false read (Bool.eq_false_iff.mpr rewritten)
  · rw [literal] at joins
    cases joins
  · exact other literal

/-- A message that consists of one value is spelled canonically, unless the value is an exception. -/
theorem isCanonical_of_value (read : extract? style collapse operand rest = some found)
    (kept : operand.dissolves = false) (value : operand.isThrowable = false) :
    found.isCanonical = true := by
  obtain ⟨notLiteral, notSum, thrown⟩ := Expr.operandKind_of_dissolves_eq_false kept
  by_contra rewritten
  obtain joins | ⟨-, -, alone, moved⟩ :=
    extract?_of_isCanonical_eq_false read (Bool.eq_false_iff.mpr rewritten)
  · exact notSum joins
  · -- Only an exception would have been moved out of the message.
    obtain ⟨raw, literal, -⟩ | ⟨-, -, error, only, same⟩ := extract?_cases read
    · exact notLiteral (Expr.operandKind_eq_literal_iff.mpr ⟨raw, literal⟩)
    · rw [alone] at only
      cases only
      rw [Expr.segments_of_dissolves_eq_false kept] at same
      obtain ⟨others, error, ⟨-, rfl⟩ | ⟨-, expr, throwable, whole, -⟩, made⟩ :=
        ofSegments_cases { explicitError := none, collapseAccessors := collapse } [.argument operand]
      · rw [same, made] at moved
        cases moved
      · obtain ⟨-, last⟩ := List.append_inj' (whole.symm.trans (List.nil_append _).symm) rfl
        cases last
        rw [thrown throwable] at value
        cases value

/-- The one string that a message consists of, if the message was not spelled canonically, is a value
that its operand joins. -/
theorem dissolves_of_soleString? (read : extract? style collapse operand rest = some found)
    (rewritten : found.isCanonical = false) {only : Expr}
    (sole : found.message.soleString? = some only) (plain : only.IsPlain) :
    only.dissolves = false := by
  obtain ⟨-, taken, string⟩ := soleString?_eq_some_iff.mp sole
  obtain ⟨raw, -, -, canonical⟩ | ⟨-, -, explicit, -, same⟩ := extract?_cases read
  · rw [canonical] at rewritten
    cases rewritten
  · have member : only ∈ found.message.arguments := by
      rw [taken]
      exact List.mem_cons_self
    rw [same] at member
    obtain value | attached := mem_arguments_ofSegments member
    · rw [operand.arguments_segments] at value
      exact Expr.dissolves_of_mem_values value
    · -- The exception itself is no string.
      have throwable := throwable_extract? read (by rw [same]; exact attached)
      rw [(plain string).1] at throwable
      cases throwable

end Message

/-! ## Written calls -/

namespace Message

/-- A message for a framework with `{}` templates starts with a literal, or with the one string that it
consists of. -/
theorem exists_templateArguments (message : Message) :
    ∃ operand rest, message.templateArguments = operand :: rest ∧
      (operand.operandKind = .literal ∨ message.soleString? = some operand) := by
  obtain ⟨only, sole, written⟩ | ⟨-, written⟩ | ⟨only, -, -, -, -, written⟩ | ⟨-, -, -, written⟩ :=
    message.templateArguments_cases
  · exact ⟨only, [], written, .inr sole⟩
  · exact ⟨_, _, written, .inl rfl⟩
  · exact ⟨_, _, written, .inl rfl⟩
  · exact ⟨_, _, written, .inl rfl⟩

/-- A message without arguments, or one that consists of one string, is that text or that string. -/
theorem operandKind_stringExpr {message : Message}
    (bare : message.arguments = [] ∨ message.soleString?.isSome = true) :
    message.stringExpr.operandKind = .literal ∨ message.soleString? = some message.stringExpr := by
  unfold stringExpr
  split
  · rename_i only sole
    exact .inr sole
  · rename_i several
    obtain none | some := bare
    · rw [none]
      exact .inl rfl
    · rw [several] at some
      cases some

end Message

namespace LogEvent.Written

variable {event : LogEvent} {target : Framework} {severity : Severity} {name : String}
  {arguments : List Expr}

/-- In a call that is written for a framework with templates, the message stands behind the level, if
there is one, and the marker. It is a literal, or the one string that the message consists of. -/
theorem exists_operand (written : event.Written target severity name arguments)
    (supported : target.supports severity = true) (templates : target.templateStyle ≠ .concatenation)
    (uncarried : ¬ (target.templateStyle = .indexed ∧ event.message.error ≠ none ∧
      event.message.arguments ≠ [])) :
    ∃ shape level marker operand rest,
      Signature.find? target.loggerType name = some ⟨some target, shape⟩ ∧
      (shape = .leveled severity ∧ level = [] ∨ shape = .levelArgument ∧ ∃ constant, level = [constant]) ∧
      arguments = level ++ (Option.toList marker ++ operand :: rest) ∧
      (∀ value, marker = some value → event.marker = some value) ∧
      (operand.operandKind = .literal ∨ event.message.soleString? = some operand) := by
  have leveled := Signature.find?_methodFor supported
  cases written with
  | template =>
    obtain ⟨operand, rest, shown, kind⟩ := event.message.exists_templateArguments
    refine ⟨_, [], event.marker, operand, rest ++ event.message.error.toList, leveled, .inl ⟨rfl, rfl⟩,
      ?_, fun _ => id, kind⟩
    rw [shown, List.nil_append, List.append_assoc, List.cons_append]
  | joined style => exact absurd style templates
  | attached style levelType constant error carried =>
    -- An exception beside arguments has no place in a pattern.
    have empty : event.message.arguments = [] := by
      by_contra some
      exact uncarried ⟨style, by rw [carried]; exact Option.some_ne_none error, some⟩
    exact ⟨_, _, none, _, _, Signature.find?_log style, .inr ⟨rfl, _, rfl⟩, rfl, by rintro _ ⟨⟩,
      Message.operandKind_stringExpr (.inl empty)⟩
  | whole style alone bare =>
    exact ⟨_, [], none, _, _, leveled, .inl ⟨rfl, rfl⟩, rfl, by rintro _ ⟨⟩,
      Message.operandKind_stringExpr bare⟩
  | indexed style =>
    exact ⟨_, _, none, _, _, Signature.find?_log style, .inr ⟨rfl, _, rfl⟩, rfl, by rintro _ ⟨⟩,
      .inl rfl⟩

/-- This is the message that is read from the call. -/
theorem exists_read (written : event.Written target severity name arguments)
    (supported : target.supports severity = true) (templates : target.templateStyle ≠ .concatenation)
    (uncarried : ¬ (target.templateStyle = .indexed ∧ event.message.error ≠ none ∧
      event.message.arguments ≠ []))
    (typed : ∀ marker, event.marker = some marker → target.isMarker marker = true)
    (unmarked : ∀ only, event.message.soleString? = some only → target.isMarker only = false)
    {options : RecognizeOptions} {receiver : Expr}
    (recognized : LogCall.recognize? options
      (.call receiver name arguments (.onInstance target.loggerType name)) = some call)
    (logs : call.origin = .framework framework) :
    ∃ operand rest found,
      Message.extract? target.templateStyle options.collapseAccessors operand rest = some found ∧
      call.isCanonical = found.isCanonical ∧
      (operand.operandKind = .literal ∨ event.message.soleString? = some operand) := by
  obtain ⟨shape, level, marker, operand, rest, signature, placed, shown, given, kind⟩ :=
    written.exists_operand supported templates uncarried
  obtain ⟨name', level', operand', rest', found, shape', whole, resolved, placed', split, read, -,
    canonical⟩ := LogCall.recognize?_logs recognized logs
  obtain ⟨-, rfl, same, method⟩ := Expr.methodCall.inj whole
  -- The method leads back to the framework and says whether there is a level.
  have declared : call.method.declaringType = target.loggerType := by
    rw [← Option.some.inj method]
    rfl
  rw [resolveSignature?, declared, signature] at resolved
  cases resolved
  have behind : marker.toList ++ operand :: rest = call.marker.toList ++ operand' :: rest' := by
    rw [shown, List.append_assoc] at same
    refine (List.append_inj same ?_).2
    obtain ⟨rfl, rfl⟩ | ⟨rfl, constant, rfl⟩ := placed
    · obtain ⟨-, rfl, -⟩ | ⟨⟨⟩, -⟩ := placed'
      rfl
    · obtain ⟨⟨⟩, -⟩ | ⟨-, -, argument, rfl, -⟩ := placed'
      rfl
  have notMarker : framework.isMarker operand = false := by
    obtain literal | sole := kind
    · exact Framework.isMarker_of_literal literal framework
    · exact unmarked operand sole
  rw [← behind, Framework.splitMarker_append (fun value found => typed value (given value found))
    notMarker] at split
  cases split
  exact ⟨operand, rest, found, read, canonical, kind⟩

end LogEvent.Written

namespace Parameterize

variable {settings : Parameterize} {expr : Expr} {replacement : Replacement}

theorem isCanonical_of_replace? (off : settings.stripToString = false)
    (made : settings.replace? expr = some replacement)
    (recognized : LogCall.recognize? { collapseAccessors := settings.collapseAccessors } expr =
      some call) (logs : call.origin = .framework framework) : call.isCanonical = false := by
  obtain ⟨-, -, canonical | ⟨on, -⟩⟩ := replace?_guards made recognized logs
  · exact canonical
  · rw [off] at on
    cases on

/-- **Written calls stay as they are.** The call that the rule writes is not replaced again, if the
arguments of its message are plain. -/
theorem replace?_emit (off : settings.stripToString = false)
    (made : settings.replace? expr = some replacement)
    (recognized : LogCall.recognize? { collapseAccessors := settings.collapseAccessors } expr =
      some call) (logs : call.origin = .framework framework)
    (plain : ∀ argument ∈ call.message.arguments, argument.IsPlain) :
    settings.replace? (call.toLogEvent.emit framework {} call.receiver).expr = none := by
  refine Option.eq_none_iff_forall_ne_some.mpr fun again replacedAgain => ?_
  obtain ⟨templates, uncarried, -⟩ := replace?_guards made recognized logs
  obtain ⟨_, _, operand, rest, found, _, -, -, -, split, read, message, canonical⟩ :=
    LogCall.recognize?_logs recognized logs
  have typed (marker : Expr) (stands : call.marker = some marker) :
      framework.isMarker marker = true := by
    rw [stands] at split
    exact Framework.isMarker_of_splitMarker split
  have string {only : Expr} (sole : call.message.soleString? = some only) :
      only.isThrowable = false ∧ ∀ framework : Framework, framework.isMarker only = false := by
    obtain ⟨-, taken, isString⟩ := Message.soleString?_eq_some_iff.mp sole
    obtain ⟨value, unmarked⟩ := plain only (taken ▸ List.mem_cons_self) isString
    exact ⟨value, fun framework => unmarked framework framework.mem_all⟩
  obtain ⟨name, arguments, emitted, written⟩ :=
    call.toLogEvent.written_emit framework {} call.receiver
  -- If the call is read as a message that is not canonical, its operand is to blame.
  obtain ⟨next, framework', recognizedAgain, logsAgain, -⟩ := replace?_cases replacedAgain
  have rewritten := isCanonical_of_replace? off replacedAgain recognizedAgain logsAgain
  rw [emitted] at recognizedAgain
  obtain ⟨operand', rest', found', readAgain, same, literal | sole⟩ :=
    written.exists_read (SeverityPolicy.supports_resolve _ _ _) templates uncarried typed
      (fun only sole => (string sole).2 framework) recognizedAgain logsAgain
  · rw [same, Message.isCanonical_of_literal readAgain literal] at rewritten
    cases rewritten
  · -- The one string that is left was a value of the first message, and is read as one value again.
    have first := isCanonical_of_replace? off made recognized logs
    rw [canonical] at first
    obtain ⟨-, taken, -⟩ := Message.soleString?_eq_some_iff.mp sole
    have kept := Message.dissolves_of_soleString? read first (message ▸ sole)
      (plain operand' (taken ▸ List.mem_cons_self))
    rw [same, Message.isCanonical_of_value readAgain kept (string sole).1] at rewritten
    cases rewritten

/-! ## Settled expressions -/

/-- The expressions that the rule looks at. -/
def wants (settings : Parameterize) (expr : Expr) : Bool :=
  expr.isResolvedCall && settings.pattern.all (·.isMatch expr)

theorem isLocal (settings : Parameterize) :
    settings.rule.IsLocal settings.wants settings.replace? where
  applies _ _ := rfl
  onExpr _ _ := rfl
  onBlock _ _ := rfl
  onField _ _ _ := rfl
  field made := by
    obtain ⟨call, framework, -, -, rfl⟩ := replace?_cases made
    exact LogEvent.field_emit _ _ _ _

/-- The expression after it is offered to the rule. -/
def rewrite (settings : Parameterize) : Expr → Expr := Rule.rewrite settings.wants settings.replace?

theorem rewrite_of_replace?_eq_none (declined : settings.replace? expr = none) :
    settings.rewrite expr = expr := by
  rw [rewrite, Rule.rewrite, declined]
  exact ite_self expr

/-- An expression that is rewritten is replaced. -/
theorem rewrite_cases (settings : Parameterize) (expr : Expr) : settings.rewrite expr = expr ∨
      ∃ replacement, settings.replace? expr = some replacement ∧
        settings.rewrite expr = replacement.expr := by
  unfold rewrite Rule.rewrite
  split
  · cases made : settings.replace? expr with
    | none => exact .inl rfl
    | some replacement => exact .inr ⟨replacement, rfl, rfl⟩
  · exact .inl rfl

/-- The rule leaves the expression alone, and the expression is plain. -/
structure Settled (settings : Parameterize) (expr : Expr) : Prop where
  fixed : settings.rewrite expr = expr
  plain : expr.IsPlain

/-- Whether all expressions inside are settled can be read off the parts. -/
theorem distributes_settled (settings : Parameterize) (place : Place) :
    Expr.Distributes fun expr => Throughout settings.Settled (expr.sites place) := by
  change Expr.Distributes fun expr => ∀ site ∈ expr.sites place, settings.Settled site.expr
  refine Expr.distributes_sites ⟨Expr.throughout_sites _, Expr.throughout_sites _⟩
    ⟨Expr.throughout_sites _, Expr.throughout_sites _⟩ (fun value => ⟨rfl, ?_⟩)
    (fun {expr} inner => ⟨rfl, ?_⟩) (fun left right => ⟨rfl, ?_⟩) fun elements => ⟨rfl, ?_⟩
  · exact Expr.isPlain_of_primitive rfl
  · exact Expr.isPlain_congr (Expr.staticType_parens expr) inner.plain
  · exact Expr.isPlain_of_primitive rfl
  · exact Expr.isPlain_of_isString_eq_false rfl

theorem settled_constant (settings : Parameterize) {target : Framework} {levelType : String}
    (known : target.levelType? = some levelType) (name : String) (place : Place) :
    Throughout settings.Settled ((Expr.constant levelType name).sites place) := by
  have other : (Expr.constant levelType name).isString = false := by
    cases target <;> cases known <;> rfl
  refine List.forall_mem_cons.mpr ⟨⟨rfl, Expr.isPlain_of_isString_eq_false other⟩, ?_⟩
  exact List.forall_mem_singleton.mpr ⟨rfl, Expr.isPlain_of_isString_eq_false rfl⟩

/-- An expression that was plain is plain when its parts are settled. -/
theorem isPlain_of_rebuilt {count : Nat} {before rebuilt : Expr} {place : Place}
    (parts : Pass.Rebuilt (fun _ _ _ => True) (fun _ _ _ => True) count before rebuilt)
    (plain : before.IsPlain) (inside : Throughout settings.Settled (rebuilt.parts place)) :
    rebuilt.IsPlain := by
  cases parts with
  -- Parentheses have the type of what stands in them, and that may be new.
  | @parens _ _ visited =>
    rw [Expr.parts, Expr.sites, List.tail_cons, visited.sites_eq_cons] at inside
    exact Expr.isPlain_congr (Expr.staticType_parens visited) (inside _ List.mem_cons_self).plain
  | _ => exact Expr.isPlain_congr rfl plain

/-- **What the rule writes is settled**, with all expressions inside it, if the parts of the call were. -/
theorem settled_replace? (off : settings.stripToString = false)
    (made : settings.replace? expr = some replacement) {place : Place}
    (inside : Throughout settings.Settled (expr.parts place)) :
    Throughout settings.Settled (replacement.expr.sites place) := by
  obtain ⟨call, framework, recognized, logs, rfl⟩ := replace?_cases made
  rw [printed, off, if_neg Bool.false_ne_true]
  obtain ⟨name, level, operand, rest, found, shape, rfl, -, -, -, read, message, -⟩ :=
    LogCall.recognize?_logs recognized logs
  obtain ⟨onReceiver, onArguments⟩ := List.forall_mem_append.mp inside
  rw [Expr.sitesList_eq_flatMap, List.forall_mem_flatMap] at onArguments
  obtain ⟨onFront, onRest⟩ := List.forall_mem_append.mp onArguments
  obtain ⟨onOperand, onRest⟩ := List.forall_mem_cons.mp onRest
  -- The message is made of parts of the call, and the new call of parts of the message.
  have distributes := settings.distributes_settled place.argument
  have onMessage := distributes.extract? read onOperand onRest
  rw [← message] at onMessage
  obtain ⟨onEach, onError⟩ := List.forall_mem_append.mp onMessage
  have declined := replace?_emit off made recognized logs fun argument member => by
    have whole := onEach argument member
    rw [argument.sites_eq_cons] at whole
    exact (whole _ List.mem_cons_self).plain
  obtain ⟨name', arguments, emitted, written⟩ :=
    call.toLogEvent.written_emit framework {} call.receiver
  have onWritten := distributes.written written
    (fun expr member => onFront expr (List.mem_append_right _ member)) onEach onError
    fun levelType known constant => settings.settled_constant known constant place.argument
  rw [emitted] at declined ⊢
  refine List.forall_mem_cons.mpr ⟨⟨rewrite_of_replace?_eq_none declined, ?_⟩,
    List.forall_mem_append.mpr ⟨onReceiver, ?_⟩⟩
  · exact Expr.isPlain_of_primitive rfl
  · rw [Expr.sitesList_eq_flatMap, List.forall_mem_flatMap]
    exact onWritten

/-- A rule that does not strip calls for texts settles what it rewrites. -/
theorem settles (off : settings.stripToString = false) :
    Rule.Settles settings.rewrite Expr.IsPlain settings.Settled where
  node {count before rebuilt place} parts plain inside := by
    obtain same | ⟨replacement, made, same⟩ := settings.rewrite_cases rebuilt
    · rw [same, rebuilt.sites_eq_cons]
      exact List.forall_mem_cons.mpr ⟨⟨same, isPlain_of_rebuilt parts plain inside⟩, inside⟩
    · rw [same]
      exact settled_replace? off made inside
  fixed := Settled.fixed

/-- **One pass writes all templates.** With calls for texts left alone, and whatever else the settings
are, an engine with this rule and a budget of two passes has an outcome for every unit that is not
nested too deep and in which strings are nothing but strings, after at most two passes. -/
theorem transform_cycles (settings : Parameterize) (maxCycles : Nat) (statistics : Statistics)
    (unit : CompilationUnit) (off : settings.stripToString = false) (budget : 2 ≤ maxCycles)
    (shallow : ∀ site ∈ unit.sites, site.level < Pass.maxDepth)
    (plain : ∀ site ∈ unit.sites, site.expr.IsPlain) :
    ∃ outcome,
      (({ rules := [settings.rule], maxCycles } : Engine).transform statistics unit).1 = .ok outcome ∧
        outcome.summary.cycles ≤ 2 :=
  Engine.transform_of_settles settings.isLocal (settles off) rfl budget statistics
    fun site member => ⟨shallow site member, plain site member⟩

/-- A call in a lambda that is itself part of the message of a call, with the text of the attached
exception collapsed. -/
theorem transform_cycles_nested : let settings : Parameterize := { collapseAccessors := true }
    let engine : Engine := { rules := [settings.rule], maxCycles := 2 }
    let logger := Expr.ident "log" (.named "org.slf4j.Logger")
    let error := Expr.ident "e" (.named ClassName.throwable)
    let log (arguments : List Expr) : Expr := .call logger "warn" arguments
      (.onInstance "org.slf4j.Logger" "warn")
    let asked := Expr.call error "getMessage" []
      (.onInstanceReturning ClassName.throwable "getMessage" .string)
    let supplier := Expr.lambda [] [.expression (log [.concat (.string "at ") (.ident "x" .string)])]
    let late := Expr.parens (.newClass (.named "S") [supplier])
    let outer := log [.concat (.concat (.string "late: ") asked) late, error]
    let unit : CompilationUnit := {
      classes := [.decl { name := "C", fqn := "C" } []
        [{ name := "m", body := [.expression outer] }] []] }
    (∀ site ∈ unit.sites, site.level < Pass.maxDepth) ∧ (∀ site ∈ unit.sites, site.expr.IsPlain) ∧
      ∃ outcome, (engine.transform {} unit).1 = .ok outcome ∧ outcome.summary.cycles ≤ 2 := by
  intro settings engine logger error log asked supplier late outer unit
  have shallow : ∀ site ∈ unit.sites, site.level < Pass.maxDepth := by decide
  have plain : ∀ site ∈ unit.sites, site.expr.IsPlain := by decide
  exact ⟨shallow, plain, transform_cycles settings 2 {} unit rfl (Nat.le_refl 2) shallow plain⟩

/-- A string that is a marker as well is taken for the marker when it is all that is left of a message,
and the message is written a second time. A concatenation that is an exception as well is put in the
place of a call for its text, and then it is the message that is taken apart. -/
theorem transform_marker : let transform (settings : Parameterize) (arguments : List Expr) :=
      let call : Expr := .call (.ident "log" (.named "org.slf4j.Logger")) "info" arguments
        (.onInstance "org.slf4j.Logger" "info")
      (({ rules := [settings.rule], maxCycles := 2 } : Engine).transform {} {
        classes := [.decl { name := "C", fqn := "C" } []
          [{ name := "m", body := [.expression call] }] []] }).1
    let text (parent : String) : JavaType :=
      .classType { fqn := ClassName.string, ancestors := [{ fqn := parent }] }
    let marker := Expr.ident "s" (text "org.slf4j.Marker")
    let error := Expr.binary .add (.string "a") (.string "b") (some (text ClassName.throwable))
    let asked := Expr.call error "getMessage" []
      (.onInstanceReturning ClassName.throwable "getMessage" .string)
    transform {} [.concat (.string "") marker, .ident "e" (.named ClassName.throwable)] =
        .error (.nonConvergence "C" 2) ∧
      transform { collapseAccessors := true } [.concat (.string "") asked, error] =
        .error (.nonConvergence "C" 2) := by
  decide

end Parameterize

end LogCalls
