import LogCalls.Emission.Factory

/-! # How a logger is asked for

What a call that asks for a logger in another framework names it by. -/

namespace LogCalls

/-- The type of an array is not named like a class of class objects. -/
theorem JavaType.isArray_of_typeName {type : JavaType} (named : type.typeName = ClassName.classObject) :
    type.isArray = false := by
  cases type with
  | primitive kind => rfl
  | classType type => rfl
  | array element =>
    have last := congrArg (fun name => name.toList.getLast?) named
    simp [typeName, ClassName.classObject] at last

/-- The expression is a class literal, or asks one for its name. -/
def Expr.NamesClass (expr : Expr) : Prop :=
  ∃ fqn, expr.bare = .classLiteral fqn ∨ ∃ select name method,
    expr.bare = .methodCall (some select) name [] method ∧ select.bare = .classLiteral fqn

namespace LoggerKey

/-- A call asks for its logger by a class literal or its name, or by an argument that is no array. -/
theorem ofExpr?_cases {argument : Expr} {key : LoggerKey} (found : ofExpr? argument = some key) :
    (∃ fqn, (key = .classObject fqn ∧ argument.bare = .classLiteral fqn) ∨
      (key = .className fqn ∧ ∃ select name method,
        argument.bare = .methodCall (some select) name [] method ∧
        (name = "getName" ∨ name = "getCanonicalName") ∧ select.bare = .classLiteral fqn)) ∨
      (argument.isArray = false ∧ (key = .name argument ∨ key = .classExpr argument)) := by
  have typed (found : ofType? argument = some key) :
      argument.isArray = false ∧ (key = .name argument ∨ key = .classExpr argument) := by
    obtain ⟨type, known, rest⟩ := Option.bind_eq_some_iff.mp found
    have array : argument.isArray = type.isArray := by rw [Expr.isArray, Expr.hasType, known]; rfl
    rw [array]
    split at rest
    · rename_i string
      cases rest
      refine ⟨?_, .inl rfl⟩
      cases type with
      | array element => cases string
      | _ => rfl
    · split at rest
      · rename_i named
        cases rest
        exact ⟨JavaType.isArray_of_typeName named, .inr rfl⟩
      · cases rest
  unfold ofExpr? at found
  split at found
  · rename_i fqn bare
    cases found
    exact .inl ⟨fqn, .inl ⟨rfl, bare⟩⟩
  · rename_i select name method bare
    split at found
    · rename_i named
      split at found
      · rename_i fqn inner
        cases found
        exact .inl ⟨fqn, .inr ⟨rfl, select, name, method, bare, by simpa using named, inner⟩⟩
      · exact .inr (typed found)
    · exact .inr (typed found)
  · exact .inr (typed found)

/-- The arguments of a call that asks a framework for the logger with this key. -/
def factoryArguments (key : LoggerKey) (target : Framework) (owner : String) : List Expr :=
  if target.isKeyedByName then key.nameArguments owner else key.classArguments target owner

/-- They name a class if the key does, or are what the key comes from. A class is asked for its name only
if the framework goes by names. -/
theorem factoryArguments_cases {arguments : List Expr} {key : LoggerKey}
    (found : ofArguments? arguments = some key) (target : Framework) (owner : String) :
    ((∀ argument ∈ arguments, argument.NamesClass) ∧
      (key.factoryArguments target owner = [] ∨
        ∃ fqn, key.factoryArguments target owner = [.classLiteral fqn] ∨
          target.isKeyedByName = true ∧
            key.factoryArguments target owner = [(Expr.classLiteral fqn).classNameCall])) ∨
      ∃ argument, arguments = [argument] ∧ argument.isArray = false ∧
        (key.factoryArguments target owner = [argument] ∨ target.isKeyedByName = true ∧
          key.factoryArguments target owner = [argument.classNameCall]) := by
  unfold factoryArguments
  unfold ofArguments? at found
  split at found
  · cases found
    refine .inl ⟨List.forall_mem_nil _, ?_⟩
    simp only [nameArguments, classArguments]
    split
    · exact .inr ⟨owner, .inr ⟨‹_›, rfl⟩⟩
    · split
      · exact .inl rfl
      · exact .inr ⟨owner, .inl rfl⟩
  · rename_i argument
    obtain ⟨fqn, ⟨rfl, bare⟩ | ⟨rfl, select, name, method, bare, -, inner⟩⟩ | ⟨scalar, rfl | rfl⟩ :=
      ofExpr?_cases found
    · refine .inl ⟨List.forall_mem_singleton.mpr ⟨fqn, .inl bare⟩, .inr ⟨fqn, ?_⟩⟩
      simp only [nameArguments, classArguments]
      split
      · exact .inr ⟨‹_›, rfl⟩
      · exact .inl rfl
    · refine .inl ⟨List.forall_mem_singleton.mpr ⟨fqn, .inr ⟨select, name, method, bare, inner⟩⟩,
        .inr ⟨fqn, ?_⟩⟩
      simp only [nameArguments, classArguments]
      split
      · exact .inr ⟨‹_›, rfl⟩
      · exact .inl rfl
    · simp only [nameArguments, classArguments, ite_self]
      exact .inr ⟨argument, rfl, scalar, .inl rfl⟩
    · simp only [nameArguments, classArguments]
      split
      · exact .inr ⟨argument, rfl, scalar, .inr ⟨‹_›, rfl⟩⟩
      · exact .inr ⟨argument, rfl, scalar, .inl rfl⟩
  · cases found

end LoggerKey

end LogCalls
