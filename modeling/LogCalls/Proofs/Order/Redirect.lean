import LogCalls.Proofs.Rule.Redirect
import Mathlib.Data.List.Chain

/-! # Redirected once and for all

What has been redirected is a call of a logger, which neither prints nor makes a pair with a statement
before or behind it. -/

namespace LogCalls

variable {expr : Expr} {framework : Framework}

namespace Expr

/-- The expression calls a method of a framework, and does not ask for a logger. -/
def Logs (expr : Expr) (framework : Framework) : Prop :=
  ∃ shape, expr.signature? = some ⟨some framework, shape⟩ ∧ shape ≠ .factory

/-- A call of a logger does not print and asks for no logger. -/
theorem Logs.not_callsNamed (logs : expr.Logs framework) {names : List String}
    (others : names ⊆ ["getLogger", "getLog", "println", "print", "printStackTrace"]) :
    Redirect.callsNamed names expr = false := by
  obtain ⟨shape, resolved, notFactory⟩ := logs
  unfold signature? at resolved
  split at resolved
  · rename_i select name arguments method
    obtain ⟨fqn, found⟩ := resolveSignature?_eq_some resolved
    obtain ⟨factory, -⟩ | ⟨-, entry⟩ := Signature.find?_framework found
    · exact absurd factory notFactory
    · -- No method of a logger has a name of this kind.
      have free : ∀ framework : Framework, ∀ entry ∈ framework.loggerMethods,
          entry.1 ∉ ["getLogger", "getLog", "println", "print", "printStackTrace"] := by
        intro framework
        cases framework <;> decide
      have missing : name ∉ names := fun member => free framework _ entry (others member)
      simpa [Redirect.callsNamed] using missing
  · cases resolved

end Expr

/-- The call that reports an event calls a method of the logger. -/
theorem LogEvent.Written.logs {event : LogEvent} {target : Framework} {severity : Severity}
    {name : String} {arguments : List Expr} (written : event.Written target severity name arguments)
    (supported : target.supports severity = true) (receiver : Expr) :
    (Expr.call receiver name arguments (.onInstance target.loggerType name)).Logs target := by
  obtain ⟨shape, found, notFactory⟩ := written.find? supported
  exact ⟨shape, resolveSignature?_of_find? found, notFactory⟩

namespace Redirect

variable {scope : ClassScope} {settings : Redirect}

/-- A redirected event logs with the target. -/
theorem logs_emit? {event : LogEvent} {replacement : Replacement}
    (emitted : settings.emit? event scope = some replacement) :
    replacement.expr.Logs settings.target := by
  obtain ⟨choice, -, whole, -⟩ := emit?_cases emitted
  obtain ⟨name, arguments, call, written⟩ :=
    event.written_emit settings.target settings.severityPolicy choice.receiver
  rw [whole, call]
  exact written.logs (SeverityPolicy.supports_resolve ..) _

/-! ## Pairs -/

/-- What makes a pair with another statement prints, and does not log. -/
theorem not_logs_of_prints {options : RecognizeOptions} {call : LogCall}
    (recognized : LogCall.recognize? options expr = some call)
    (prints : call.origin.framework? = none) (framework : Framework) : ¬ expr.Logs framework := by
  rintro ⟨shape, resolved, -⟩
  obtain ⟨receiver, name, arguments, method, signature, rfl, known, -, printing⟩ :=
    LogCall.recognize?_prints recognized prints
  have same : signature = ⟨some framework, shape⟩ := Option.some.inj (known.symm.trans resolved)
  obtain ⟨fqn, found⟩ := resolveSignature?_eq_some known
  rw [same] at found printing
  obtain ⟨notTrace, notConsole⟩ := Signature.find?_framework_ne_print found
  obtain ⟨trace, -⟩ | ⟨console, -⟩ := printing
  · exact notTrace trace
  · exact notConsole console

/-- A log call starts no pair of prints. -/
theorem mergedEvent?_of_logs_left (logs : expr.Logs framework) (second : Statement) :
    settings.mergedEvent? (.expression expr) second = none := by
  refine Option.eq_none_iff_forall_ne_some.mpr fun event merged => ?_
  obtain ⟨print, trace, write, printed, error, same, -, recognized, console, -⟩ :=
    mergedEvent?_cases merged
  cases same
  exact not_logs_of_prints recognized (by rw [console]; rfl) framework logs

/-- Nor does it end one. -/
theorem mergedEvent?_of_logs_right (logs : expr.Logs framework) (first : Statement) :
    settings.mergedEvent? first (.expression expr) = none := by
  refine Option.eq_none_iff_forall_ne_some.mpr fun event merged => ?_
  obtain ⟨print, trace, write, printed, error, -, same, -, -, recognized, stackTrace, -⟩ :=
    mergedEvent?_cases merged
  cases same
  exact not_logs_of_prints recognized (by rw [stackTrace]; rfl) framework logs

/-- No two neighbours make a pair. -/
def Settled (settings : Redirect) (block : List Statement) : Prop :=
  block.IsChain fun first second => settings.mergedEvent? first second = none

/-- A settled block has no pairs to merge. -/
theorem mergePairs_of_settled {block : List Statement} (settled : settings.Settled block)
    (scope : ClassScope) : settings.mergePairs scope block = (block, {}) := by
  fun_induction mergePairs settings scope block with
  | case1 scope first second rest replacement found later statements effects visited _ =>
    obtain ⟨apart, -⟩ := List.isChain_cons_cons.mp settled
    rw [apart] at found
    cases found
  | case2 scope first second rest unmerged statements effects visited ih =>
    obtain ⟨-, others⟩ := List.isChain_cons_cons.mp settled
    rw [ih others] at visited
    cases visited
    rfl
  | case3 => rfl

/-- There is a logger for new calls, or a place for one. -/
def HasLogger (settings : Redirect) (scope : ClassScope) : Prop :=
  (scope.chooseLogger? settings.target settings.loggerPolicy).isSome = true

/-- An event is emitted iff there is a logger. -/
theorem emit?_isSome_iff (event : LogEvent) :
    (settings.emit? event scope).isSome = true ↔ settings.HasLogger scope := by
  unfold emit? HasLogger
  cases scope.chooseLogger? settings.target settings.loggerPolicy with
  | none => exact Iff.rfl
  | some choice => cases asked : choice.request? <;> simp [asked]

/-- The field that a class is given can hold a logger. -/
theorem isAssignableTo_request (settings : Redirect) (owner : String) :
    (settings.request owner).declaration.type.isAssignableTo settings.target.loggerType = true := by
  change (JavaType.named settings.target.loggerType).isAssignableTo settings.target.loggerType = true
  cases settings.target <;> decide

/-- A class that is given a logger has it from then on, under the name under which it was given. -/
theorem loggerName?_addField (unknown : scope.loggerName? settings.target = none) (owner : String) :
    (scope.addField (settings.request owner).declaration).loggerName? settings.target =
      some settings.loggerPolicy.fieldName := by
  have logger := settings.isAssignableTo_request owner
  -- No annotation provides a logger and no field is one, so the new field is the first.
  unfold ClassScope.loggerName? at unknown ⊢
  split at unknown
  · cases unknown
  · rename_i plain
    obtain ⟨undeclared, -⟩ := Option.or_eq_none_iff.mp unknown
    obtain ⟨-, none⟩ := Option.or_eq_none_iff.mp (Option.map_eq_none_iff.mp undeclared)
    have alone : (scope.addField (settings.request owner).declaration).fields.filter
        (·.type.isAssignableTo settings.target.loggerType) =
        [(settings.request owner).declaration] := by
      rw [ClassScope.addField, List.filter_cons, if_pos logger, List.head?_eq_none_iff.mp none]
    refine (if_neg plain).trans ?_
    rw [ClassScope.declaredLogger?, alone]
    rfl

/-- A class that has been given a logger has one. -/
theorem hasLogger_addField (scope : ClassScope) (owner : String) :
    settings.HasLogger (scope.addField (settings.request owner).declaration) := by
  have logger := settings.isAssignableTo_request owner
  have named : ((scope.addField (settings.request owner).declaration).loggerName?
      settings.target).isSome = true := by
    unfold ClassScope.loggerName?
    split
    · rfl
    · simp [ClassScope.declaredLogger?, ClassScope.addField, logger]
  unfold HasLogger ClassScope.chooseLogger?
  obtain ⟨name, known⟩ := Option.isSome_iff_exists.mp named
  rw [known]
  rfl

/-- A class without a logger and without a place for one keeps its statements. -/
theorem mergePairs_of_not_hasLogger (without : ¬ settings.HasLogger scope)
    (block : List Statement) : settings.mergePairs scope block = (block, {}) := by
  fun_induction mergePairs settings scope block with
  | case1 scope first second rest replacement found later statements effects visited _ =>
    obtain ⟨event, -, emitted⟩ := Option.bind_eq_some_iff.mp found
    exact absurd ((emit?_isSome_iff event).mp (Option.isSome_of_eq_some emitted)) without
  | case2 scope first second rest unmerged statements effects visited ih =>
    rw [ih without] at visited
    cases visited
    rfl
  | case3 => rfl

/-- The first statement stays, or a call of a logger stands in its place. -/
theorem head?_mergePairs (settings : Redirect) (scope : ClassScope) (first : Statement)
    (rest : List Statement) :
    ∃ others, (settings.mergePairs scope (first :: rest)).1 = first :: others ∨
      ∃ expr : Expr, expr.Logs settings.target ∧
        (settings.mergePairs scope (first :: rest)).1 = .expression expr :: others := by
  cases rest with
  | nil => exact ⟨[], .inl rfl⟩
  | cons second rest =>
    rw [mergePairs]
    split
    · rename_i replacement found
      obtain ⟨event, -, emitted⟩ := Option.bind_eq_some_iff.mp found
      exact ⟨_, .inr ⟨replacement.expr, logs_emit? emitted, rfl⟩⟩
    · exact ⟨_, .inl rfl⟩

/-- **Pairs are merged for good.** Where a class can log, no pair is left. -/
theorem settled_mergePairs (has : settings.HasLogger scope)
    (block : List Statement) : settings.Settled (settings.mergePairs scope block).1 := by
  fun_induction mergePairs settings scope block with
  | case1 scope first second rest replacement found later statements effects visited
      ih =>
    obtain ⟨event, -, emitted⟩ := Option.bind_eq_some_iff.mp found
    -- The class can still log, now perhaps with the logger that this call has asked for.
    have stillHas : settings.HasLogger later := by
      simp only [later]
      split
      · rename_i request asked
        rw [request_emit? emitted asked]
        exact hasLogger_addField scope scope.fqn
      · exact has
    have settled := ih stillHas
    rw [visited] at settled
    exact List.isChain_cons.mpr
      ⟨fun next _ => mergedEvent?_of_logs_left (logs_emit? emitted) next, settled⟩
  | case2 scope first second rest kept statements effects visited ih =>
    have settled := ih has
    have apart : settings.mergedEvent? first second = none := by
      cases merged : settings.mergedEvent? first second with
      | none => rfl
      | some event =>
        rw [merged, Option.bind_some] at kept
        have emits := (emit?_isSome_iff event).mpr has
        rw [kept] at emits
        cases emits
    -- The next statement is the old one, or a call of a logger, which makes no pair.
    obtain ⟨others, same | ⟨expr, logs, same⟩⟩ := head?_mergePairs settings scope second rest
    · rw [same] at settled
      rw [visited] at same
      cases same
      exact List.isChain_cons_cons.mpr ⟨apart, settled⟩
    · rw [same] at settled
      rw [visited] at same
      cases same
      exact List.isChain_cons_cons.mpr ⟨mergedEvent?_of_logs_right logs first, settled⟩
  | case3 scope statements short =>
    match statements, short with
    | [], _ => exact .nil
    | [only], _ => exact .singleton only
    | first :: second :: rest, short => exact (short first second rest rfl).elim

/-- A block of which pairs have been merged stays as it is, wherever it stands. -/
theorem replaceBlock?_idle {block : List Statement} {scope : Scope} {replacement : BlockReplacement}
    (replaced : settings.replaceBlock? block scope = some replacement) (later : Scope) :
    settings.replaceBlock? replacement.statements later = none := by
  have settled : settings.Settled replacement.statements := by
    obtain ⟨shorter, rfl⟩ := replaceBlock?_cases replaced
    by_cases has : settings.HasLogger scope.current
    · exact settled_mergePairs has block
    · -- A class that cannot log would have kept its block.
      rw [mergePairs_of_not_hasLogger has] at shorter
      exact absurd rfl shorter
  unfold replaceBlock?
  rw [mergePairs_of_settled settled]
  exact if_pos rfl

end Redirect

end LogCalls
