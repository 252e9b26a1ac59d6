import LogCalls.CallSite.Factory

/-! # Which methods are recognised

A recognised method of a framework is its accessor for loggers, or one of the methods of its loggers.
What is true of the entries of that table is true of all recognised calls. -/

namespace LogCalls

variable {signature : Signature}

/-- A recognised call invokes a method that is recognised in some class. -/
theorem resolveSignature?_eq_some {select : Option Expr} {name : String} {method : ResolvedMethod}
    (resolved : resolveSignature? select name method = some signature) :
    ∃ fqn, Signature.find? fqn name = some signature := by
  unfold resolveSignature? at resolved
  split at resolved
  · rename_i found
    cases resolved
    exact ⟨_, found⟩
  · simp only [Option.bind_eq_bind, Option.bind_eq_some_iff] at resolved
    obtain ⟨receiver, -, type, -, receiverClass, -, inherited⟩ := resolved
    obtain ⟨entry, -, found⟩ := List.exists_of_findSome?_eq_some inherited
    exact ⟨entry.fqn, found⟩

/-- A method that is recognised in the class that declares it is what the call invokes. -/
theorem resolveSignature?_of_find? {select : Option Expr} {name : String} {method : ResolvedMethod}
    (found : Signature.find? method.declaringType name = some signature) :
    resolveSignature? select name method = some signature := by
  rw [resolveSignature?, found]

/-- A method of a framework is its accessor for loggers, or a method of its loggers. -/
theorem Framework.shape?_cases {framework : Framework} {declaringType name : String} {shape : CallShape}
    (known : framework.shape? declaringType name = some shape) :
    (shape = .factory ∧ declaringType ∈ framework.factoryClasses ∧
      name = framework.factoryMethod) ∨
    (declaringType ∈ framework.loggerClasses ∧ (name, shape) ∈ framework.loggerMethods) := by
  unfold shape? at known
  split at known
  · rename_i factory
    cases known
    simp only [Bool.and_eq_true, List.contains_eq_mem, decide_eq_true_eq, beq_iff_eq] at factory
    exact .inl ⟨rfl, factory.1, factory.2⟩
  · split at known
    · rename_i logger
      obtain ⟨front, back, whole, -⟩ := List.lookup_eq_some_iff.mp known
      refine .inr ⟨by simpa using logger, ?_⟩
      rw [whole]
      exact List.mem_append_right front List.mem_cons_self
    · cases known

namespace Signature

variable {declaringType name : String} {framework : Framework} {shape : CallShape}

/-- A recognised method is one of a framework, or prints. -/
theorem find?_cases (found : find? declaringType name = some signature) :
    (∃ framework, signature.framework = some framework ∧
      framework.shape? declaringType name = some signature.shape) ∨
    (signature.framework = none ∧ platform? declaringType name = some signature.shape) := by
  unfold find? at found
  split at found
  · rename_i inFramework
    cases found
    obtain ⟨framework, -, mapped⟩ := List.exists_of_findSome?_eq_some inFramework
    obtain ⟨shape, known, rfl⟩ := Option.map_eq_some_iff.mp mapped
    exact .inl ⟨framework, rfl, known⟩
  · obtain ⟨shape, known, rfl⟩ := Option.map_eq_some_iff.mp found
    exact .inr ⟨rfl, known⟩

theorem find?_framework (found : find? declaringType name = some ⟨some framework, shape⟩) :
    (shape = .factory ∧ declaringType ∈ framework.factoryClasses ∧
      name = framework.factoryMethod) ∨
    (declaringType ∈ framework.loggerClasses ∧ (name, shape) ∈ framework.loggerMethods) := by
  obtain ⟨called, same, known⟩ | ⟨unknown, -⟩ := find?_cases found
  · cases same
    exact Framework.shape?_cases known
  · cases unknown

/-- The methods that log with a severity are named for it, but for two that have no tier of their
own. -/
theorem find?_leveled {severity : Severity}
    (found : find? declaringType name = some ⟨some framework, .leveled severity⟩) :
    declaringType ∈ framework.loggerClasses ∧
      ((framework.supports severity = true ∧ name = framework.methodFor severity) ∨
        (framework = .jul ∧ (name = "finest" ∨ name = "config"))) := by
  obtain ⟨factory, -⟩ | ⟨declared, entry⟩ := find?_framework found
  · cases factory
  · refine ⟨declared, ?_⟩
    have named : ∀ framework : Framework, ∀ entry ∈ framework.loggerMethods,
        ∀ severity ∈ Severity.all, entry.2 = .leveled severity →
          (framework.supports severity = true ∧ entry.1 = framework.methodFor severity) ∨
            (framework = .jul ∧ (entry.1 = "finest" ∨ entry.1 = "config")) := by
      intro framework
      cases framework <;> decide
    exact named framework _ entry severity severity.mem_all rfl

/-- Only accessors for loggers ask for a logger, and they do nothing else. -/
theorem find?_factory_iff (found : find? declaringType name = some ⟨some framework, shape⟩) :
    shape = .factory ↔ name = "getLogger" ∨ name = "getLog" := by
  obtain ⟨rfl, -, rfl⟩ | ⟨-, entry⟩ := find?_framework found
  · cases framework <;> decide
  · have other : ∀ framework : Framework, ∀ entry ∈ framework.loggerMethods,
        entry.2 ≠ .factory ∧ entry.1 ≠ "getLogger" ∧ entry.1 ≠ "getLog" := by
      intro framework
      cases framework <;> decide
    obtain ⟨notFactory, first, second⟩ := other framework _ entry
    exact ⟨fun factory => absurd factory notFactory, fun named => by
      obtain rfl | rfl := named
      · exact absurd rfl first
      · exact absurd rfl second⟩

/-- Methods of a framework do not print. -/
theorem find?_framework_ne_print (found : find? declaringType name = some ⟨some framework, shape⟩) :
    shape ≠ .stackTrace ∧ shape ≠ .console := by
  obtain ⟨rfl, -⟩ | ⟨-, entry⟩ := find?_framework found
  · decide
  · have other : ∀ framework : Framework, ∀ entry ∈ framework.loggerMethods,
        entry.2 ≠ .stackTrace ∧ entry.2 ≠ .console := by
      intro framework
      cases framework <;> decide
    exact other framework _ entry

/-- A class that declares methods of loggers declares those for all severities. -/
theorem find?_methodFor_of_mem {severity : Severity}
    (declared : declaringType ∈ framework.loggerClasses)
    (supported : framework.supports severity = true) :
    find? declaringType (framework.methodFor severity) =
      some ⟨some framework, .leveled severity⟩ := by
  have each : ∀ framework : Framework, ∀ fqn ∈ framework.loggerClasses, ∀ severity ∈ Severity.all,
      framework.supports severity = true →
        find? fqn (framework.methodFor severity) = some ⟨some framework, .leveled severity⟩ := by
    intro framework
    cases framework <;> decide
  exact each framework _ declared severity severity.mem_all supported

/-- The names that the methods of frameworks and the methods that print have. -/
def knownNames : List String :=
  ["printStackTrace", "print", "println"] ++ Framework.all.flatMap fun framework =>
    framework.factoryMethod :: framework.loggerMethods.map (·.1)

/-- A recognised method has one of the known names. -/
theorem mem_knownNames (found : find? declaringType name = some signature) : name ∈ knownNames := by
  obtain ⟨framework, called, known⟩ | ⟨-, known⟩ := find?_cases found
  · have entry : name ∈ framework.factoryMethod :: framework.loggerMethods.map (·.1) := by
      obtain ⟨-, -, rfl⟩ | ⟨-, entry⟩ := Framework.shape?_cases known
      · exact List.mem_cons_self
      · exact List.mem_cons_of_mem _ (List.mem_map_of_mem entry)
    refine List.mem_append_right _ (List.mem_flatMap.mpr ⟨framework, ?_, entry⟩)
    cases framework <;> decide
  · refine List.mem_append_left _ ?_
    unfold platform? at known
    split at known
    · rename_i printed
      simp only [Bool.and_eq_true, decide_eq_true_eq] at printed
      rw [printed.2]
      decide
    · split at known
      · rename_i printed
        simp only [Bool.and_eq_true, Bool.or_eq_true, decide_eq_true_eq] at printed
        obtain rfl | rfl := printed.2 <;> decide
      · cases known

end Signature

/-- A call that asks for a logger invokes an accessor of a framework, and its argument is the key. -/
theorem FactoryCall.recognize?_cases {expr : Expr} {factory : FactoryCall}
    (recognized : recognize? expr = some factory) :
    ∃ select name arguments, expr = .methodCall select name arguments (some factory.method) ∧
      resolveSignature? select name factory.method = some ⟨some factory.framework, .factory⟩ ∧
      LoggerKey.ofArguments? arguments = some factory.key := by
  unfold recognize? at recognized
  split at recognized
  · rename_i select name arguments method
    obtain ⟨⟨called, shape⟩, resolved, rest⟩ := Option.bind_eq_some_iff.mp recognized
    split at rest
    · rename_i isFactory
      simp only [Option.bind_eq_bind, Option.bind_eq_some_iff] at rest
      obtain ⟨framework, rfl, key, known, made⟩ := rest
      cases isFactory
      cases made
      exact ⟨select, name, arguments, rfl, resolved, known⟩
    · cases rest
  · cases recognized

end LogCalls
