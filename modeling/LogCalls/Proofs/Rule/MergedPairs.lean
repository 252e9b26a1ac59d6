import LogCalls.Proofs.Order.Redirect

/-! # Console writes merged with stack traces

A block is divided into portions: statements that stay, and pairs of a write to the error stream with the
stack trace that is printed after it. What the console rule makes of a block is read off its portions,
one statement for each. Pairs do not overlap, since a statement that prints a stack trace is no write, and
once a logger has been found for the first pair it serves for all the others. -/

namespace LogCalls

/-! ## Pairs -/

/-- The expression `trace` is the call `error.printStackTrace()`, for an exception `error`. -/
def Expr.PrintsTrace (error trace : Expr) : Prop :=
  ∃ method, trace = .methodCall (some error) "printStackTrace" [] (some method) ∧
    resolveSignature? (some error) "printStackTrace" method = some ⟨none, .stackTrace⟩ ∧
    error.isThrowable = true

/-- Stack traces are printed by one method only. -/
theorem Signature.find?_stackTrace {declaringType name : String} {signature : Signature}
    (found : find? declaringType name = some signature) (prints : signature.shape = .stackTrace) :
    name = "printStackTrace" ∧ signature = ⟨none, .stackTrace⟩ := by
  obtain ⟨framework, shape⟩ := signature
  cases prints
  cases framework with
  | some framework => exact absurd rfl (find?_framework_ne_print found).1
  | none =>
    rcases find?_cases found with ⟨framework, called, -⟩ | ⟨-, known⟩
    · cases called
    · unfold platform? at known
      split at known
      · rename_i named
        simp only [Bool.and_eq_true, decide_eq_true_eq] at named
        exact ⟨named.2, rfl⟩
      · split at known <;> cases known

namespace Redirect

variable {event : LogEvent} {settings : Redirect}

/-- A printed stack trace is recognised, with the exception whose trace it is. -/
theorem printedTrace?_iff {trace error : Expr} :
    (∃ printed, printedTrace? trace = some printed ∧ printed.message.error = some error) ↔
      error.PrintsTrace trace := by
  constructor
  · rintro ⟨printed, found, attached⟩
    obtain ⟨recognized, origin⟩ := printedTrace?_cases found
    obtain ⟨receiver, name, arguments, method, signature, rfl, resolved, -, printing⟩ :=
      LogCall.recognize?_prints recognized (by rw [origin]; rfl)
    rcases printing with ⟨shape, -, rfl, throwable, message⟩ | ⟨-, stream, value, found, console, -⟩
    · obtain ⟨fqn, known⟩ := resolveSignature?_eq_some resolved
      obtain ⟨rfl, rfl⟩ := Signature.find?_stackTrace known shape
      rw [message] at attached
      cases attached
      exact ⟨method, rfl, resolved, throwable⟩
    · rw [origin] at console
      cases console
  · rintro ⟨method, rfl, resolved, throwable⟩
    simp [printedTrace?, LogCall.recognize?, resolved, LogCall.ofStackTrace?, throwable]

/-- The first statement writes to the error stream, the second prints the stack trace of an exception,
and the message that is written carries no exception or this one. Together they are an event with the
message of the first and the exception of the second. -/
def IsPair (settings : Redirect) (first second : Statement) (event : LogEvent) : Prop :=
  ∃ print trace write error, first = .expression print ∧ second = .expression trace ∧
    LogCall.recognize? settings.recognize print = some write ∧ write.origin = .console .err ∧
    error.PrintsTrace trace ∧ (write.message.error = none ∨ write.message.error = some error) ∧
    event = { write.toLogEvent with message := { write.message with error := some error } }

theorem consoleWrite?_eq_some_iff {expr : Expr} {write : LogCall} {stream : ConsoleStream} :
    settings.consoleWrite? expr = some (write, stream) ↔
      LogCall.recognize? settings.recognize expr = some write ∧ write.origin = .console stream := by
  constructor
  · exact consoleWrite?_cases
  · rintro ⟨recognized, origin⟩
    simp [consoleWrite?, recognized, origin]

/-- The pairs that are found are all pairs that there are. -/
theorem mergedEvent?_eq_some_iff {first second : Statement} :
    settings.mergedEvent? first second = some event ↔ settings.IsPair first second event := by
  constructor
  · intro merged
    obtain ⟨print, trace, write, printed, error, rfl, rfl, recognized, origin, recognizedTrace, stackTrace,
      attached, carried, rfl⟩ := mergedEvent?_cases merged
    have traced : printedTrace? trace = some printed := by
      simp [printedTrace?, recognizedTrace, stackTrace]
    exact ⟨print, trace, write, error, rfl, rfl, recognized, origin,
      printedTrace?_iff.mp ⟨printed, traced, attached⟩, carried, rfl⟩
  · rintro ⟨print, trace, write, error, rfl, rfl, recognized, origin, prints, carried, rfl⟩
    obtain ⟨printed, traced, attached⟩ := printedTrace?_iff.mpr prints
    have written := consoleWrite?_eq_some_iff.mpr ⟨recognized, origin⟩
    simp only [mergedEvent?, written, traced, attached, Option.bind_eq_bind, Option.bind_some, if_true]
    rcases carried with none | same
    · rw [none]
    · rw [same]
      simp [← same]

/-- Pairs do not overlap: a statement that prints a stack trace is no write. -/
theorem IsPair.not_isPair {first second third : Statement} {other : LogEvent}
    (pair : settings.IsPair first second event) : ¬ settings.IsPair second third other := by
  obtain ⟨print, trace, write, error, -, rfl, -, -, ⟨method, rfl, resolved, -⟩, -⟩ := pair
  rintro ⟨otherPrint, otherTrace, otherWrite, otherError, same, -, recognized, origin, -⟩
  cases same
  obtain ⟨receiver, name, arguments, otherMethod, signature, whole, known, -, printing⟩ :=
    LogCall.recognize?_prints recognized (by rw [origin]; rfl)
  cases whole
  rw [resolved] at known
  cases known
  rcases printing with ⟨-, stackTrace, -⟩ | ⟨shape, -⟩
  · rw [origin] at stackTrace
    cases stackTrace
  · cases shape

theorem IsPair.event_eq {first second : Statement} {other : LogEvent}
    (pair : settings.IsPair first second event) (same : settings.IsPair first second other) :
    event = other := by
  rw [← mergedEvent?_eq_some_iff] at pair same
  exact Option.some.inj (pair.symm.trans same)

/-! ## Portions -/

/-- A statement that stays, or two that become one event. -/
inductive Portion where
  | kept (statement : Statement)
  | pair (first second : Statement) (event : LogEvent)

namespace Portion

/-- The statements that the portion consists of. -/
def statements : Portion → List Statement
  | kept statement => [statement]
  | pair first second _ => [first, second]

/-- The portion is a pair. -/
def isPair : Portion → Bool
  | kept _ => false
  | pair _ _ _ => true

/-- The statement that stands for the portion: the event of a pair is reported through a receiver. -/
def merged (settings : Redirect) (receiver : Expr) : Portion → Statement
  | kept statement => statement
  | pair _ _ event =>
    .expression (event.emit settings.target settings.severityPolicy receiver).expr

end Portion

/-- The block is divided into the portions: put together they are the block, their pairs are pairs, and
wherever two neighbours of the block are a pair, they are a portion of their own. -/
structure Divides (settings : Redirect) (block : List Statement) (portions : List Portion) : Prop where
  whole : portions.flatMap (·.statements) = block
  sound : ∀ first second event, .pair first second event ∈ portions →
    settings.IsPair first second event
  complete : ∀ before first second after event, block = before ++ first :: second :: after →
    settings.IsPair first second event →
      ∃ front back, portions = front ++ .pair first second event :: back ∧
        front.flatMap (·.statements) = before

namespace Divides

variable {block : List Statement} {portions : List Portion}

/-- A block of at most one statement has no pairs. -/
theorem of_short (short : block.length ≤ 1) : settings.Divides block (block.map .kept) where
  whole := by
    rw [List.flatMap_map]
    exact List.flatMap_singleton' block
  sound := by
    intro first second event member
    obtain ⟨statement, -, kept⟩ := List.mem_map.mp member
    cases kept
  complete := by
    rintro before first second after event rfl
    simp only [List.length_append, List.length_cons] at short
    omega

/-- A pair in front of a block is a portion of its own. -/
theorem pair {first second : Statement} (pair : settings.IsPair first second event)
    (divides : settings.Divides block portions) :
    settings.Divides (first :: second :: block) (.pair first second event :: portions) where
  whole := by
    rw [List.flatMap_cons, divides.whole]
    rfl
  sound := by
    intro other next otherEvent member
    rcases List.mem_cons.mp member with same | member
    · cases same
      exact pair
    · exact divides.sound other next otherEvent member
  complete := by
    intro before other next after otherEvent same isPair
    -- Two neighbours are the pair in front, or one of its statements and the next, or both behind it.
    rcases before with _ | ⟨only, _ | ⟨_, before⟩⟩
    · cases same
      rw [pair.event_eq isPair]
      exact ⟨[], portions, rfl, rfl⟩
    · cases same
      exact absurd isPair pair.not_isPair
    · cases same
      obtain ⟨front, back, rfl, rfl⟩ := divides.complete before other next after otherEvent rfl isPair
      exact ⟨.pair _ _ event :: front, back, rfl, rfl⟩

/-- A statement that makes no pair with the next one stays. -/
theorem keep {first second : Statement} (apart : ∀ event, ¬ settings.IsPair first second event)
    (divides : settings.Divides (second :: block) portions) :
    settings.Divides (first :: second :: block) (.kept first :: portions) where
  whole := by
    rw [List.flatMap_cons, divides.whole]
    rfl
  sound := by
    intro other next event member
    rcases List.mem_cons.mp member with same | member
    · cases same
    · exact divides.sound other next event member
  complete := by
    intro before other next after event same isPair
    cases before with
    | nil =>
      cases same
      exact absurd isPair (apart event)
    | cons statement before =>
      obtain ⟨rfl, rest⟩ := List.cons.inj same
      obtain ⟨front, back, rfl, rfl⟩ := divides.complete before other next after event rest isPair
      exact ⟨.kept first :: front, back, rfl, rfl⟩

/-- There are as many portions as statements if none of them is a pair. -/
theorem length_eq_iff (divides : settings.Divides block portions) :
    portions.length = block.length ↔ portions.any Portion.isPair = false := by
  have counted : ∀ portions : List Portion,
      (portions.flatMap (·.statements)).length = portions.length + portions.countP Portion.isPair := by
    intro portions
    induction portions with
    | nil => rfl
    | cons portion portions ih =>
      rw [List.flatMap_cons, List.length_append, ih, List.countP_cons]
      cases portion <;> simp [Portion.statements, Portion.isPair] <;> omega
  rw [← divides.whole, counted, List.any_eq_false, ← List.countP_eq_zero]
  omega

/-- A block has a pair if two of its neighbours are one. -/
theorem any_isPair_iff (divides : settings.Divides block portions) :
    portions.any Portion.isPair = true ↔
      ∃ before first second after event,
        block = before ++ first :: second :: after ∧ settings.IsPair first second event := by
  rw [List.any_eq_true]
  constructor
  · rintro ⟨portion, member, pair⟩
    cases portion with
    | kept statement => cases pair
    | pair first second event =>
      obtain ⟨front, back, rfl⟩ := List.append_of_mem member
      refine ⟨front.flatMap (·.statements), first, second, back.flatMap (·.statements), event, ?_,
        divides.sound first second event member⟩
      rw [← divides.whole, List.flatMap_append, List.flatMap_cons]
      rfl
  · rintro ⟨before, first, second, after, event, whole, pair⟩
    obtain ⟨front, back, rfl, -⟩ := divides.complete before first second after event whole pair
    exact ⟨.pair first second event, by simp, rfl⟩

end Divides

/-! ## One logger for all pairs -/

/-- A class that is given a logger uses it from then on. -/
theorem chooseLogger?_addField {scope : ClassScope}
    (unknown : scope.loggerName? settings.target = none) (owner : String) :
    (scope.addField (settings.request owner).declaration).chooseLogger? settings.target
        settings.loggerPolicy =
      some (.existing settings.loggerPolicy.fieldName settings.target) := by
  rw [ClassScope.chooseLogger?, loggerName?_addField unknown]

/-- What is merged in a class that can log: its block is divided into portions, and a single logger serves
for all the pairs. Only that logger is ever asked for. -/
theorem mergePairs_portions {scope : ClassScope} {choice : LoggerChoice}
    (chosen : scope.chooseLogger? settings.target settings.loggerPolicy = some choice)
    (block : List Statement) :
    ∃ portions, settings.Divides block portions ∧
      (settings.mergePairs scope block).1 = portions.map (·.merged settings choice.receiver) ∧
      (settings.mergePairs scope block).2.field =
        if portions.any Portion.isPair then choice.request? else none := by
  -- The first pair may add a field to the class, so the choice differs from one statement to the next.
  fun_induction mergePairs settings scope block generalizing choice with
  | case1 scope first second rest replacement found later statements effects visited =>
    rename_i ih
    obtain ⟨event, merged, emitted⟩ := Option.bind_eq_some_iff.mp found
    obtain ⟨_, alsoChosen, written, field, -⟩ := emit?_cases emitted
    cases chosen.symm.trans alsoChosen
    -- The logger for the others is the same, and it need not be asked for again.
    obtain ⟨again, chosenAgain, sameReceiver, nothing⟩ : ∃ again,
        later.chooseLogger? settings.target settings.loggerPolicy = some again ∧
          again.receiver = choice.receiver ∧ again.request? = none := by
      simp only [later, field]
      rcases ClassScope.chooseLogger?_cases chosen with ⟨name, -, rfl⟩ | ⟨unknown, -, -, rfl⟩
      · exact ⟨_, chosen, rfl, rfl⟩
      · exact ⟨_, chooseLogger?_addField unknown scope.fqn, rfl, rfl⟩
    obtain ⟨portions, divides, same, asked⟩ := ih chosenAgain
    rw [visited, sameReceiver] at same
    rw [visited, nothing, ite_self] at asked
    refine ⟨.pair first second event :: portions,
      divides.pair (mergedEvent?_eq_some_iff.mp merged), ?_, ?_⟩
    · rw [List.map_cons, Portion.merged, ← same, written]
    · rw [Effects.merge, asked, Option.none_or, field]
      rfl
  | case2 scope first second rest kept statements effects visited ih =>
    -- A class that can log reports every event, so what is kept is no pair.
    have apart : ∀ event, ¬ settings.IsPair first second event := by
      intro event pair
      rw [mergedEvent?_eq_some_iff.mpr pair, Option.bind_some] at kept
      have emits := (emit?_isSome_iff event).mpr (Option.isSome_of_eq_some chosen)
      rw [kept] at emits
      cases emits
    obtain ⟨portions, divides, same, asked⟩ := ih chosen
    rw [visited] at same asked
    refine ⟨.kept first :: portions, divides.keep apart, ?_, asked⟩
    rw [List.map_cons, Portion.merged, ← same]
  | case3 scope statements short =>
    have length : statements.length ≤ 1 := by
      rcases statements with _ | ⟨first, _ | ⟨second, rest⟩⟩
      · exact Nat.zero_le 1
      · exact Nat.le_refl 1
      · exact (short first second rest rfl).elim
    refine ⟨statements.map .kept, .of_short length, ?_, ?_⟩
    · rw [List.map_map]
      exact (List.map_id _).symm
    · have kept : (statements.map Portion.kept).any Portion.isPair = false := by
        simp [Portion.isPair]
      rw [kept]
      rfl

/-- **Merging loses and reorders nothing.** The rule leaves a block as it is if the class can have no
logger or if no two neighbours are a pair. Otherwise every pair of neighbours is replaced, in its place, by
one call that reports its event, all other statements stay, and all calls go through one receiver, which
is the only field that may have to be added. -/
theorem onBlock_merges (settings : Redirect) (block : List Statement) (scope : Scope) :
    (settings.consoleRule.onBlock block scope = .ok none ∧
      (scope.current.chooseLogger? settings.target settings.loggerPolicy = none ∨
        ¬ ∃ before first second after event,
          block = before ++ first :: second :: after ∧ settings.IsPair first second event)) ∨
    ∃ choice portions effects,
      scope.current.chooseLogger? settings.target settings.loggerPolicy = some choice ∧
      (∃ before first second after event,
        block = before ++ first :: second :: after ∧ settings.IsPair first second event) ∧
      settings.Divides block portions ∧
      settings.consoleRule.onBlock block scope = .ok (some {
        statements := portions.map (·.merged settings choice.receiver), effects }) ∧
      effects.field = choice.request? := by
  have merges : settings.consoleRule.onBlock block scope = .ok
      (if (settings.mergePairs scope.current block).1.length = block.length then none
        else some {
          statements := (settings.mergePairs scope.current block).1
          effects := (settings.mergePairs scope.current block).2 }) := rfl
  rw [merges]
  rcases chosen : scope.current.chooseLogger? settings.target settings.loggerPolicy with _ | choice
  · left
    have without : ¬ settings.HasLogger scope.current := by
      simp [HasLogger, chosen]
    rw [mergePairs_of_not_hasLogger without, if_pos rfl]
    exact ⟨rfl, .inl rfl⟩
  · obtain ⟨portions, divides, same, asked⟩ := mergePairs_portions chosen block
    rw [← divides.any_isPair_iff]
    by_cases pairs : portions.any Portion.isPair = true
    · right
      rw [if_pos pairs] at asked
      have shorter : (settings.mergePairs scope.current block).1.length ≠ block.length := by
        rw [same, List.length_map, ne_eq, divides.length_eq_iff, pairs]
        decide
      rw [if_neg shorter, same]
      exact ⟨choice, portions, _, rfl, pairs, divides, rfl, asked⟩
    · left
      have kept : (settings.mergePairs scope.current block).1.length = block.length := by
        rw [same, List.length_map, divides.length_eq_iff]
        exact Bool.eq_false_iff.mpr pairs
      rw [if_pos kept]
      exact ⟨rfl, .inr pairs⟩

end Redirect

end LogCalls
