import LogCalls.Proofs.Convergence.Rules

/-! # Rules import what they name

What a rule puts in place of a node is made of the parts of the node, and of a few classes that the rule
brings in: loggers and accessors of the target, level constants, and the class that the node stands in.
Each rule asks for an import of every class that it brings in. -/

namespace LogCalls

variable {name : String} {arguments : List Expr} {receiver : Expr} {event : LogEvent}

/-! ## Effects -/

namespace Effects

/-- The classes that a replacement may bring in are known: the class of objects, the class that it stands
in, and what it imports. -/
structure Knows (effects : Effects) (known : String → Prop) (owner : String) : Prop where
  object : known ClassName.object
  owner : known owner
  imports {name : String} : name ∈ effects.addImports → known name

/-- The declaration of a requested field names known classes only. -/
def RequestsKnown (effects : Effects) (known : String → Prop) : Prop :=
  ∀ request, effects.field = some request → ∀ name ∈ request.declaration.references, known name

/-- Without a field nothing is requested. -/
theorem requestsKnown_of_none {effects : Effects} {known : String → Prop} (nothing : effects.field = none) :
    effects.RequestsKnown known := by
  intro request asked
  rw [nothing] at asked
  cases asked

end Effects

/-! ## Expressions -/

/-- Arguments refer to what each refers to. -/
theorem Expr.referencesList_eq_flatMap (exprs : List Expr) :
    referencesList exprs = exprs.flatMap (·.references) := by
  induction exprs with
  | nil => rw [referencesList, List.flatMap_nil]
  | cons expr rest ih =>
    rw [referencesList, List.flatMap_cons, ih]

/-- Every class that the expression names is known. -/
def Expr.NamesOnly (known : String → Prop) (expr : Expr) : Prop := ∀ name ∈ expr.references, known name

namespace Expr

variable {known : String → Prop}

/-- All names are known iff those of each item are. -/
theorem namesOnly_list {exprs : List Expr} :
    (∀ name ∈ referencesList exprs, known name) ↔ ∀ expr ∈ exprs, expr.NamesOnly known := by
  rw [referencesList_eq_flatMap, List.forall_mem_flatMap]
  rfl

/-- A call names what its receiver and arguments name. -/
@[simp] theorem namesOnly_methodCall {select : Option Expr} {method : Option ResolvedMethod} :
    (Expr.methodCall select name arguments method).NamesOnly known ↔
      (∀ receiver ∈ select, receiver.NamesOnly known) ∧
        ∀ expr ∈ arguments, expr.NamesOnly known := by
  cases select with
  | none =>
    rw [NamesOnly, references, namesOnly_list]
    simp
  | some receiver =>
    rw [NamesOnly, references, List.forall_mem_append, namesOnly_list]
    simp [NamesOnly]

/-- The same for a call with a receiver. -/
theorem namesOnly_call {method : ResolvedMethod} :
    (Expr.call receiver name arguments method).NamesOnly known ↔
      receiver.NamesOnly known ∧ ∀ expr ∈ arguments, expr.NamesOnly known := by
  rw [call, namesOnly_methodCall]
  simp

/-- A variable names no type. -/
theorem namesOnly_ident (name : String) (type : JavaType) : (Expr.ident name type).NamesOnly known := by
  rw [ident, NamesOnly, references]
  exact nofun

/-- A constant names its class. -/
@[simp] theorem namesOnly_constant {fqn : String} :
    (Expr.constant fqn name).NamesOnly known ↔ known fqn := by
  rw [constant, NamesOnly, references, references]
  exact List.forall_mem_singleton

/-- A class literal names its class. -/
@[simp] theorem namesOnly_classLiteral {fqn : String} :
    (Expr.classLiteral fqn).NamesOnly known ↔ known fqn := by
  rw [NamesOnly, references]
  exact List.forall_mem_singleton

/-- Parentheses name nothing. -/
@[simp] theorem namesOnly_bare {expr : Expr} : expr.bare.NamesOnly known ↔ expr.NamesOnly known := by
  fun_induction bare expr with
  | case1 inner ih =>
    rw [ih, NamesOnly, NamesOnly, references]
  | case2 => rfl

/-- Which classes an expression names can be read off its parts. -/
theorem distributes_namesOnly (object : known ClassName.object) :
    Expr.Distributes (NamesOnly known) where
  literal value := by
    rw [NamesOnly, references]
    exact nofun
  parens {inner} := by
    change (∀ name ∈ (Expr.parens inner).references, known name) ↔ _
    rw [references]
    rfl
  operands whole := by
    rw [NamesOnly, references, List.forall_mem_append] at whole
    exact whole
  concat left right := by
    rw [concat, NamesOnly, references, List.forall_mem_append]
    exact ⟨left, right⟩
  elements whole := by
    rw [NamesOnly, references, List.forall_mem_append, namesOnly_list] at whole
    exact whole.2
  objectArray each := by
    rw [objectArray, NamesOnly, references, List.forall_mem_append, namesOnly_list]
    exact ⟨List.forall_mem_singleton.mpr object, each⟩

end Expr

/-! ## Events -/

section Events

variable {target : Framework} {known : String → Prop}

/-- The event that a call reports names no more than the call. -/
theorem LogCall.namesOnly_recognize? (object : known ClassName.object) {options : RecognizeOptions}
    {expr : Expr} {call : LogCall} (recognized : recognize? options expr = some call)
    (whole : expr.NamesOnly known) : call.toLogEvent.Consists (Expr.NamesOnly known) := by
  obtain ⟨receiver, name, arguments, method, rfl, -⟩ := recognize?_cases recognized
  obtain ⟨onSelect, onArguments⟩ := Expr.namesOnly_methodCall.mp whole
  exact (Expr.distributes_namesOnly object).recognize? recognized onSelect onArguments

/-- The receiver of a call of a framework is part of it. -/
theorem LogCall.namesOnly_receiver {options : RecognizeOptions} {expr : Expr} {call : LogCall}
    {framework : Framework} (recognized : recognize? options expr = some call)
    (logs : call.origin = .framework framework) (whole : expr.NamesOnly known) :
    call.receiver.NamesOnly known := by
  obtain ⟨name, level, operand, rest, found, same, -⟩ := recognize?_framework recognized logs
  rw [same, Expr.namesOnly_methodCall] at whole
  exact whole.1 call.receiver rfl

/-- **Written calls import their level constants.** The call that is written for an event names the
classes that the event and the receiver name, and what it imports. -/
theorem LogEvent.namesOnly_emit (object : known ClassName.object) {policy : SeverityPolicy}
    (imports : ∀ name ∈ (event.emit target policy receiver).effects.addImports, known name)
    (parts : event.Consists (Expr.NamesOnly known)) (onReceiver : receiver.NamesOnly known) :
    (event.emit target policy receiver).expr.NamesOnly known := by
  have distributes := Expr.distributes_namesOnly object
  unfold emit at imports ⊢
  split
  · refine Expr.namesOnly_call.mpr ⟨onReceiver, ?_⟩
    simp only [List.forall_mem_append]
    exact ⟨⟨parts.marker, distributes.templateArguments parts.arguments⟩, parts.error⟩
  · refine Expr.namesOnly_call.mpr ⟨onReceiver, ?_⟩
    exact List.forall_mem_cons.mpr ⟨distributes.concatenation parts.arguments, parts.error⟩
  · rename_i style
    simp only [style] at imports
    unfold emitIndexed at imports ⊢
    dsimp only at imports ⊢
    have text := distributes.stringExpr parts.arguments
    split
    · rename_i error carried
      rw [carried] at imports
      have level : known (target.levelType?.getD julLevelType) :=
        imports _ (Effects.mem_addImports_importing.mpr (.inr rfl))
      have onError := parts.error
      rw [carried] at onError
      refine Expr.namesOnly_call.mpr ⟨onReceiver, ?_⟩
      exact List.forall_mem_cons.mpr ⟨Expr.namesOnly_constant.mpr level,
        List.forall_mem_cons.mpr ⟨text, onError⟩⟩
    · rename_i alone
      rw [alone] at imports
      dsimp only at imports
      split
      · exact Expr.namesOnly_call.mpr ⟨onReceiver, List.forall_mem_singleton.mpr text⟩
      · rename_i parameters
        rw [if_neg parameters] at imports
        have level : known (target.levelType?.getD julLevelType) :=
          imports _ (Effects.mem_addImports_importing.mpr (.inr rfl))
        refine Expr.namesOnly_call.mpr ⟨onReceiver, ?_⟩
        exact List.forall_mem_cons.mpr ⟨Expr.namesOnly_constant.mpr level,
          List.forall_mem_cons.mpr ⟨distributes.literal _,
            List.forall_mem_singleton.mpr (distributes.indexedParameters parts.arguments)⟩⟩

/-- A check that is written for a framework imports its level constant. -/
theorem Framework.namesOnly_emitCheck? {severity : Severity}
    {policy : SeverityPolicy} {replacement : Replacement}
    (made : target.emitCheck? severity policy receiver = some replacement)
    (imports : ∀ name ∈ replacement.effects.addImports, known name)
    (onReceiver : receiver.NamesOnly known) : replacement.expr.NamesOnly known := by
  obtain ⟨name, arguments, same, ⟨rfl, -⟩ | ⟨levelType, constant, -, rfl, effects⟩, -⟩ :=
    emitCheck?_cases made
  · rw [same]
    exact Expr.namesOnly_call.mpr ⟨onReceiver, nofun⟩
  · rw [effects] at imports
    have level : known levelType := imports _ (Effects.mem_addImports_importing.mpr (.inr rfl))
    rw [same]
    exact Expr.namesOnly_call.mpr
      ⟨onReceiver, List.forall_mem_singleton.mpr (Expr.namesOnly_constant.mpr level)⟩

/-- A retyped logger names nothing new. -/
theorem Expr.namesOnly_retyped? {type : JavaType} {expr retyped : Expr}
    (made : expr.retyped? type = some retyped) (whole : expr.NamesOnly known) :
    retyped.NamesOnly known := by
  obtain ⟨name, old, rfl, rfl⟩ | ⟨target, name, old, rfl, rfl⟩ := Expr.retyped?_cases made
  · exact namesOnly_ident name type
  · exact whole

/-- The call that asks for a logger names the classes that its key names, or the calling class. -/
theorem Framework.namesOnly_factoryCall {key : LoggerKey}
    {owner : String} (found : LoggerKey.ofArguments? arguments = some key)
    (factory : known target.factoryType) (owned : known owner)
    (each : ∀ expr ∈ arguments, expr.NamesOnly known) :
    (target.factoryCall key owner).NamesOnly known := by
  have asked {classObject : Expr} (whole : classObject.NamesOnly known) :
      classObject.classNameCall.NamesOnly known := Expr.namesOnly_call.mpr ⟨whole, nofun⟩
  have classed {fqn : String} (isKnown : known fqn) :
      ∀ expr ∈ (if target.isKeyedByName then [(Expr.classLiteral fqn).classNameCall]
        else [.classLiteral fqn]), expr.NamesOnly known := by
    have literal := Expr.namesOnly_classLiteral.mpr isKnown
    split
    · exact List.forall_mem_singleton.mpr (asked literal)
    · exact List.forall_mem_singleton.mpr literal
  have named : ∀ expr ∈ key.factoryArguments target owner, expr.NamesOnly known := by
    unfold LoggerKey.ofArguments? at found
    split at found
    · cases found
      simp only [LoggerKey.factoryArguments, LoggerKey.nameArguments, LoggerKey.classArguments]
      have own := classed owned
      split
      · rename_i byName
        rwa [if_pos byName] at own
      · rename_i byClass
        rw [if_neg byClass] at own
        split
        · exact nofun
        · exact own
    · rename_i argument
      have onArgument := each argument List.mem_cons_self
      obtain ⟨fqn, ⟨rfl, bare⟩ | ⟨rfl, select, name, method, bare, -, inner⟩⟩ | ⟨-, rfl | rfl⟩ :=
        LoggerKey.ofExpr?_cases found
      · rw [← Expr.namesOnly_bare, bare] at onArgument
        exact classed (Expr.namesOnly_classLiteral.mp onArgument)
      · rw [← Expr.namesOnly_bare, bare, Expr.namesOnly_methodCall] at onArgument
        have onSelect := onArgument.1 select rfl
        rw [← Expr.namesOnly_bare, inner] at onSelect
        exact classed (Expr.namesOnly_classLiteral.mp onSelect)
      · simp only [LoggerKey.factoryArguments, LoggerKey.nameArguments, LoggerKey.classArguments,
          ite_self]
        exact each
      · simp only [LoggerKey.factoryArguments, LoggerKey.nameArguments, LoggerKey.classArguments]
        split
        · exact List.forall_mem_singleton.mpr (asked onArgument)
        · exact each
    · cases found
  refine Expr.namesOnly_call.mpr ⟨?_, named⟩
  rw [Expr.NamesOnly, Expr.references]
  exact List.forall_mem_singleton.mpr factory

end Events

/-! ## Rules -/

/-- What the rule puts in place of a node names the classes that the node names, and known ones. -/
abbrev Rule.Imports (rule : Rule) (known : String → Prop) : Prop :=
  rule.Replaces
    (fun expr scope replacement => replacement.effects.Knows known scope.current.fqn →
      (expr.NamesOnly known → replacement.expr.NamesOnly known) ∧
        replacement.effects.RequestsKnown known)
    (fun block scope replacement => replacement.effects.Knows known scope.current.fqn →
      ((∀ name ∈ Statement.referencesList block, known name) →
        ∀ name ∈ Statement.referencesList replacement.statements, known name) ∧
        replacement.effects.RequestsKnown known)
    (fun field _ scope replacement => replacement.effects.Knows known scope.current.fqn →
      (∀ name ∈ field.references, known name) → ∀ name ∈ replacement.field.references, known name)

section Rules

variable {known : String → Prop} {expr : Expr} {scope : Scope} {replacement : Replacement}

/-- A migrated call names only known types. -/
theorem Migrate.namesOnly_replace? {settings : Migrate}
    (made : settings.replace? expr scope = some replacement)
    (knows : replacement.effects.Knows known scope.current.fqn) (whole : expr.NamesOnly known) :
    replacement.expr.NamesOnly known := by
  obtain ⟨use, field, planned, -, -, written⟩ := replace?_cases made
  obtain ⟨receiver, retyped, -, emitted⟩ := emit?_cases written
  obtain ⟨-, framework, -, -, origin⟩ := plan?_cases planned
  obtain ⟨call, rfl, recognized, logs, -⟩ | ⟨check, rfl, -, recognized, -⟩ := origin
  · obtain ⟨_, ⟨⟩, same, imports⟩ | ⟨_, _, ⟨⟩, -⟩ := emitted
    rw [same]
    have onReceiver := LogCall.namesOnly_receiver recognized logs whole
    exact LogEvent.namesOnly_emit knows.object (fun name member => knows.imports (imports ▸ member))
      (LogCall.namesOnly_recognize? knows.object recognized whole)
      (Expr.namesOnly_retyped? retyped onReceiver)
  · obtain ⟨_, ⟨⟩, -⟩ | ⟨_, made, ⟨⟩, wrote, same, imports⟩ := emitted
    rw [same]
    obtain ⟨name, arguments, method, rfl, -⟩ := LevelCheck.recognize?_cases recognized
    have onReceiver := (Expr.namesOnly_methodCall.mp whole).1 check.receiver rfl
    exact Framework.namesOnly_emitCheck? wrote
      (fun name member => knows.imports (imports ▸ member))
      (Expr.namesOnly_retyped? retyped onReceiver)

/-- So does a parameterized call. -/
theorem Parameterize.namesOnly_replace? {settings : Parameterize}
    (made : settings.replace? expr = some replacement)
    (knows : replacement.effects.Knows known scope.current.fqn) (whole : expr.NamesOnly known) :
    replacement.expr.NamesOnly known := by
  obtain ⟨call, framework, recognized, logs, rfl⟩ := replace?_cases made
  obtain ⟨marker, arguments, error⟩ := LogCall.namesOnly_recognize? knows.object recognized whole
  refine LogEvent.namesOnly_emit knows.object (fun name => knows.imports) ⟨marker, ?_, ?_⟩
    (LogCall.namesOnly_receiver recognized logs whole)
  · -- A call for the text of an argument names what the argument names.
    unfold printed
    split
    · refine List.forall_mem_map.mpr fun argument member => ?_
      have onArgument := arguments argument member
      unfold strip stripped?
      split
      · split
        · exact (Expr.namesOnly_methodCall.mp onArgument).1 _ rfl
        · exact onArgument
      · exact onArgument
    · exact arguments
  · rw [error_printed]
    exact error

/-- So does a corrected logger request. -/
theorem EnclosingClass.namesOnly_replace?
    (made : EnclosingClass.replace? expr scope = some replacement)
    (knows : replacement.effects.Knows known scope.current.fqn) (whole : expr.NamesOnly known) :
    replacement.expr.NamesOnly known := by
  obtain ⟨factory, select, name, argument, rfl, -, -, -, rfl⟩ := replace?_cases made
  have own := Expr.namesOnly_classLiteral.mpr knows.owner
  refine Expr.namesOnly_methodCall.mpr ⟨(Expr.namesOnly_methodCall.mp whole).1,
    List.forall_mem_singleton.mpr ?_⟩
  unfold newKey
  split
  · refine Expr.namesOnly_methodCall.mpr ⟨?_, nofun⟩
    rintro receiver ⟨⟩
    exact own
  · exact own

/-- So does a call with the whole exception. -/
theorem CompleteException.namesOnly_replace? (made : CompleteException.replace? expr = some replacement)
    (object : known ClassName.object) (whole : expr.NamesOnly known) :
    replacement.expr.NamesOnly known := by
  have distributes := Expr.distributes_namesOnly object
  obtain ⟨select, name, arguments, method, framework, severity, marker, rest, completed, rfl, -, -,
    split, complete, rfl⟩ := replace?_cases made
  cases Framework.eq_append_of_splitMarker split
  rw [Expr.namesOnly_methodCall, List.forall_mem_append] at whole ⊢
  refine ⟨whole.1, whole.2.1, ?_⟩
  obtain ⟨last, error, asks, given⟩ := complete?_cases complete
  obtain ⟨accessor, called, bare, -⟩ := Expr.accessedError?_eq_some asks
  have onError (onLast : last.NamesOnly known) : error.NamesOnly known := by
    rw [← Expr.namesOnly_bare, bare, Expr.namesOnly_methodCall] at onLast
    exact onLast.1 error rfl
  obtain ⟨rfl, rfl⟩ | ⟨template, middle, rfl, rfl | rfl⟩ := given
  · have onLast := whole.2.2 last List.mem_cons_self
    exact List.forall_mem_cons.mpr
      ⟨distributes.literal _, List.forall_mem_singleton.mpr (onError onLast)⟩
  · obtain ⟨front, onLast⟩ := List.forall_mem_append.mp whole.2.2
    have onLast := onLast last List.mem_cons_self
    exact List.forall_mem_append.mpr
      ⟨front, List.forall_mem_cons.mpr ⟨onLast, List.forall_mem_singleton.mpr (onError onLast)⟩⟩
  · obtain ⟨front, onLast⟩ := List.forall_mem_append.mp whole.2.2
    have onLast := onLast last List.mem_cons_self
    exact List.forall_mem_append.mpr ⟨front, List.forall_mem_singleton.mpr (onError onLast)⟩

/-- So does a call of another level. -/
theorem ChangeLevel.namesOnly_replace? {settings : ChangeLevel}
    (made : settings.replace? expr = some replacement) (whole : expr.NamesOnly known) :
    replacement.expr.NamesOnly known := by
  obtain ⟨select, arguments, method, framework, rfl, -, -, rfl⟩ := replace?_cases made
  rwa [Expr.namesOnly_methodCall] at whole ⊢

/-- So does a call of a level's own method. -/
theorem LevelMethod.namesOnly_replace? (made : LevelMethod.replace? expr = some replacement)
    (whole : expr.NamesOnly known) : replacement.expr.NamesOnly known := by
  obtain ⟨select, name, level, operand, resolved, method, _, rfl, -, rfl⟩ := replace?_cases made
  obtain ⟨onSelect, onArguments⟩ := Expr.namesOnly_methodCall.mp whole
  exact Expr.namesOnly_methodCall.mpr ⟨onSelect, (List.forall_mem_cons.mp onArguments).2⟩

/-- So does a call with a constant message. -/
theorem ConstantMessage.namesOnly_replace? (made : ConstantMessage.replace? expr = some replacement)
    (object : known ClassName.object) (whole : expr.NamesOnly known) :
    replacement.expr.NamesOnly known := by
  have distributes := Expr.distributes_namesOnly object
  obtain ⟨select, name, arguments, method, framework, severity, marker, operand, trailing, replaced,
    rfl, -, -, split, constant, rfl⟩ := replace?_cases made
  cases Framework.eq_append_of_splitMarker split
  rw [Expr.namesOnly_methodCall, List.forall_mem_append, List.forall_mem_cons] at whole
  obtain ⟨onSelect, onMarker, onOperand, onTrailing⟩ := whole
  rw [Expr.namesOnly_methodCall, List.forall_mem_append, List.forall_mem_append]
  refine ⟨onSelect, ⟨onMarker, ?_⟩, onTrailing⟩
  rw [← Expr.namesOnly_bare] at onOperand
  obtain ⟨format, template, parameters, called, -, rfl⟩ | ⟨-, value, called, rfl⟩ |
    ⟨-, receiver, method, bare, rfl⟩ := constant?_cases constant
  · obtain ⟨receiver, resolved, bare⟩ := stringCall?_eq_some called
    rw [bare, Expr.namesOnly_methodCall, List.forall_mem_cons] at onOperand
    exact List.forall_mem_cons.mpr ⟨distributes.literal _, onOperand.2.2⟩
  · obtain ⟨receiver, resolved, bare⟩ := stringCall?_eq_some called
    rw [bare, Expr.namesOnly_methodCall] at onOperand
    exact List.forall_mem_cons.mpr ⟨distributes.literal _, onOperand.2⟩
  · rw [bare, Expr.namesOnly_methodCall] at onOperand
    exact List.forall_mem_cons.mpr
      ⟨distributes.literal _, List.forall_mem_singleton.mpr (onOperand.1 receiver rfl)⟩

/-- So does a call with its array spread. -/
theorem SpreadArray.namesOnly_replace? (made : SpreadArray.replace? expr = some replacement)
    (object : known ClassName.object) (whole : expr.NamesOnly known) :
    replacement.expr.NamesOnly known := by
  obtain ⟨select, name, leading, element, elements, method, index, rfl, -, -, -, -, rfl⟩ :=
    replace?_cases made
  rw [Expr.namesOnly_methodCall, List.forall_mem_append] at whole ⊢
  obtain ⟨onSelect, onLeading, onArray⟩ := whole
  exact ⟨onSelect, onLeading,
    (Expr.distributes_namesOnly object).elements (onArray _ List.mem_cons_self)⟩

/-! ### Redirected calls -/

/-- The logger that a class is given has the type and the accessor that are imported for it. -/
theorem FieldRequest.references_declaration {request : FieldRequest}
    (imports : ∀ name ∈ request.imports, known name) (owned : known request.ownerType) :
    ∀ name ∈ request.declaration.references, known name := by
  obtain ⟨logger, factory⟩ : known request.framework.loggerType ∧
      known request.framework.factoryType := by
    unfold FieldRequest.imports at imports
    dsimp only at imports
    split at imports
    · rename_i same
      rw [same]
      exact ⟨imports _ List.mem_cons_self, imports _ List.mem_cons_self⟩
    · exact ⟨imports _ List.mem_cons_self, imports _ (List.mem_cons_of_mem _ List.mem_cons_self)⟩
  have literal : LoggerKey.ofArguments? [.classLiteral request.ownerType] =
      some (.classObject request.ownerType) := rfl
  have initial := Framework.namesOnly_factoryCall literal factory owned
    (List.forall_mem_singleton.mpr (Expr.namesOnly_classLiteral.mpr owned))
  exact List.forall_mem_append.mpr ⟨List.forall_mem_singleton.mpr logger, initial⟩

namespace Redirect

variable {settings : Redirect}

/-- A redirected event names known types only. -/
theorem namesOnly_emit? {current : ClassScope}
    (emitted : settings.emit? event current = some replacement)
    (knows : replacement.effects.Knows known current.fqn) :
    (event.Consists (Expr.NamesOnly known) → replacement.expr.NamesOnly known) ∧
      replacement.effects.RequestsKnown known := by
  obtain ⟨choice, chosen, same, field, imports⟩ := emit?_cases emitted
  constructor
  · intro parts
    have onReceiver : choice.receiver.NamesOnly known := by
      cases choice with
      | existing name framework => exact Expr.namesOnly_ident name _
      | injected request => exact Expr.namesOnly_ident request.fieldName _
    rw [same]
    exact LogEvent.namesOnly_emit knows.object
      (fun name member => knows.imports ((imports name).mpr (.inl member))) parts onReceiver
  · intro request asked
    have owner : request.ownerType = current.fqn := by rw [request_emit? emitted asked]; rfl
    rw [field] at asked
    exact FieldRequest.references_declaration
      (fun name member => knows.imports ((imports name).mpr (.inr ⟨request, asked, member⟩)))
      (owner ▸ knows.owner)

/-- The event that two statements are merged into names no more than they do. -/
theorem namesOnly_mergedEvent? (object : known ClassName.object) {first second : Statement}
    (merged : settings.mergedEvent? first second = some event)
    (onFirst : ∀ name ∈ first.references, known name)
    (onSecond : ∀ name ∈ second.references, known name) : event.Consists (Expr.NamesOnly known) := by
  obtain ⟨print, trace, write, printed, error, rfl, rfl, recognized, -, traced, -, carried, -, rfl⟩ :=
    mergedEvent?_cases merged
  rw [Statement.references] at onFirst onSecond
  have written := LogCall.namesOnly_recognize? object recognized onFirst
  have thrown := LogCall.namesOnly_recognize? object traced onSecond
  have onError := thrown.error
  rw [carried] at onError
  exact ⟨written.marker, written.arguments, onError⟩

/-- The statements of a block, with pairs of them merged, name what the block names and what the merged
calls import. -/
theorem namesOnly_mergePairs (current : ClassScope) (block : List Statement)
    (knows : (settings.mergePairs current block).2.Knows known current.fqn) :
    ((∀ name ∈ Statement.referencesList block, known name) →
      ∀ name ∈ Statement.referencesList (settings.mergePairs current block).1, known name) ∧
      (settings.mergePairs current block).2.RequestsKnown known := by
  fun_induction mergePairs settings current block with
  | case1 current first second rest replacement found later statements effects visited
      ih =>
    obtain ⟨event, merged, emitted⟩ := Option.bind_eq_some_iff.mp found
    have same : later.fqn = current.fqn := by
      simp only [later]
      split <;> rfl
    rw [visited] at ih
    -- The imports of the merged call and those of the rest are collected together.
    have knowsFirst : replacement.effects.Knows known current.fqn := {
      object := knows.object
      owner := knows.owner
      imports := fun member => knows.imports (Effects.mem_addImports_merge.mpr (.inl member)) }
    have knowsRest : effects.Knows known later.fqn := {
      object := knows.object
      owner := same ▸ knows.owner
      imports := fun member => knows.imports (Effects.mem_addImports_merge.mpr (.inr member)) }
    obtain ⟨onRest, requestsRest⟩ := ih knowsRest
    obtain ⟨onCall, requestsFirst⟩ := namesOnly_emit? emitted knowsFirst
    constructor
    · intro onBlock
      rw [Statement.referencesList, Statement.referencesList, List.forall_mem_append,
        List.forall_mem_append] at onBlock
      rw [Statement.referencesList, Statement.references, List.forall_mem_append]
      exact ⟨onCall (namesOnly_mergedEvent? knows.object merged onBlock.1 onBlock.2.1),
        onRest onBlock.2.2⟩
    · intro request asked
      obtain fromRest | ⟨-, fromFirst⟩ := Option.or_eq_some_iff.mp asked
      · exact requestsRest request fromRest
      · exact requestsFirst request fromFirst
  | case2 current first second rest unmerged statements effects visited ih =>
    rw [visited] at ih
    obtain ⟨onRest, requests⟩ := ih knows
    refine ⟨fun onBlock => ?_, requests⟩
    rw [Statement.referencesList, List.forall_mem_append] at onBlock ⊢
    exact ⟨onBlock.1, onRest onBlock.2⟩
  | case3 => exact ⟨id, Effects.requestsKnown_of_none rfl⟩

end Redirect

end Rules

/-! ### All rules -/

namespace Rule.Imports

variable {known : String → Prop}

/-- A rule for expressions that asks for no field. -/
theorem ofFieldless {rule : Rule} {replace? : Expr → Scope → Option Replacement}
    (isForExprs : rule.IsForExprs replace?)
    (names : ∀ expr scope replacement, replace? expr scope = some replacement →
      replacement.effects.Knows known scope.current.fqn →
      (expr.NamesOnly known → replacement.expr.NamesOnly known) ∧ replacement.effects.field = none) :
    rule.Imports known :=
  .ofExpr isForExprs fun expr scope replacement _ made knows =>
    (names expr scope replacement made knows).imp_right Effects.requestsKnown_of_none

/-- The console rule imports what it names. -/
theorem console (settings : Redirect) : settings.consoleRule.Imports known where
  onExpr _ made knows := by
    obtain ⟨call, recognized, -, emitted⟩ := Redirect.replaceConsole?_cases (Except.ok.inj made)
    obtain ⟨named, requests⟩ := Redirect.namesOnly_emit? emitted knows
    exact ⟨fun whole => named (LogCall.namesOnly_recognize? knows.object recognized whole), requests⟩
  onBlock {block scope replacement} made knows := by
    obtain ⟨-, rfl⟩ := Redirect.replaceBlock?_cases (Except.ok.inj made)
    exact Redirect.namesOnly_mergePairs scope.current block knows
  onField made := by cases made

/-- So does the stack trace rule. -/
theorem stackTrace (settings : Redirect) : settings.stackTraceRule.Imports known where
  onExpr _ made knows := by
    obtain ⟨call, recognized, -, emitted⟩ := Redirect.replaceTrace?_cases (Except.ok.inj made)
    obtain ⟨named, requests⟩ := Redirect.namesOnly_emit? emitted knows
    exact ⟨fun whole => named (LogCall.namesOnly_recognize? knows.object recognized whole), requests⟩
  onBlock made := by cases made
  onField made := by cases made

/-- So does a migration. -/
theorem migrate (settings : Migrate) : settings.rule.Imports known where
  onExpr _ made knows := by
    have made := Except.ok.inj made
    exact ⟨Migrate.namesOnly_replace? made knows,
      Effects.requestsKnown_of_none (Tariff.field_migrate made)⟩
  onBlock made := by cases made
  onField {field declared scope replacement} made knows whole := by
    obtain ⟨framework, initial, factory, -, -, initialized, recognized, -, -, written, -, imports⟩ :=
      Migrate.replaceField?_cases (Except.ok.inj made)
    obtain ⟨select, name, arguments, rfl, -, keyed⟩ := FactoryCall.recognize?_cases recognized
    have onInitial : (Expr.methodCall select name arguments (some factory.method)).NamesOnly known := by
      rw [FieldDecl.references, initialized, List.forall_mem_append] at whole
      exact whole.2
    rw [written]
    exact List.forall_mem_append.mpr
      ⟨List.forall_mem_singleton.mpr (knows.imports ((imports _).mpr (.inr rfl))),
      Framework.namesOnly_factoryCall keyed (knows.imports ((imports _).mpr (.inl rfl))) knows.owner
        (Expr.namesOnly_methodCall.mp onInitial).2⟩

/-- So does the rule of private loggers. -/
theorem privateLogger : PrivateLogger.rule.Imports known where
  onExpr _ made := by cases made
  onBlock made := by cases made
  onField made _ whole := by
    obtain ⟨-, rfl⟩ := PrivateLogger.replaceField?_cases (Except.ok.inj made)
    exact whole

end Rule.Imports

/-- **Every rule imports what it names.** -/
theorem Configuration.imports_of_buildRule {configuration : Configuration} {rule : Rule}
    (built : configuration.buildRule name = .ok rule) (known : String → Prop) :
    rule.Imports known := by
  cases builds_of_buildRule built with
  | @parameterize settings parsed =>
    exact .ofFieldless settings.isForExprs_rule fun _ _ _ made knows =>
      ⟨Parameterize.namesOnly_replace? made knows, Tariff.field_parameterize made⟩
  | stackTrace => exact .stackTrace configuration.redirect
  | console => exact .console configuration.redirect
  | print =>
    exact .redirect (Rule.Imports.console configuration.redirect)
      (Rule.Imports.stackTrace configuration.redirect)
  | migrate => exact .migrate configuration.migrate
  | enclosingClass =>
    exact .ofFieldless EnclosingClass.isForExprs_rule fun _ _ _ made knows =>
      ⟨EnclosingClass.namesOnly_replace? made knows, (Tariff.asksNothing_enclosingClass made).field⟩
  | completeException =>
    exact .ofFieldless CompleteException.isForExprs_rule fun _ _ _ made knows =>
      ⟨CompleteException.namesOnly_replace? made knows.object,
        (Tariff.asksNothing_completeException made).field⟩
  | @changeLevel settings given =>
    exact .ofFieldless settings.isForExprs_rule fun _ _ _ made _ =>
      ⟨ChangeLevel.namesOnly_replace? made, (Tariff.asksNothing_changeLevel made).field⟩
  | levelMethod =>
    exact .ofFieldless LevelMethod.isForExprs_rule fun _ _ _ made _ =>
      ⟨LevelMethod.namesOnly_replace? made, (Tariff.asksNothing_levelMethod made).field⟩
  | constantMessage =>
    exact .ofFieldless ConstantMessage.isForExprs_rule fun _ _ _ made knows =>
      ⟨ConstantMessage.namesOnly_replace? made knows.object,
        (Tariff.asksNothing_constantMessage made).field⟩
  | spreadArray =>
    exact .ofFieldless SpreadArray.isForExprs_rule fun _ _ _ made knows =>
      ⟨SpreadArray.namesOnly_replace? made knows.object, (Tariff.asksNothing_spreadArray made).field⟩
  | privateLogger => exact .privateLogger

end LogCalls
