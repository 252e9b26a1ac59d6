import LogCalls.Proofs.Convergence.Parts
import LogCalls.Proofs.Rule.Configured

/-! # Classes get lighter

Fields, methods and classes weigh what the expressions in them weigh. A logger field that may move to
the target framework counts for its new initializer as well, and a class that may be given a logger has
the weight of its declaration in reserve. -/

namespace LogCalls

/-! ## Hollow requests -/

/-- How many requests in the initializer of a field are put to a hollow array. -/
def FieldDecl.hollowAccessors (field : FieldDecl) : Nat :=
  total Expr.hollowAccessors field.initializer.toList

/-- How many requests in the body of a method are put to a hollow array. -/
def MethodDecl.hollowAccessors (method : MethodDecl) : Nat :=
  Statement.hollowAccessorsList method.body

namespace ClassDecl

mutual

/-- How many requests in a class are put to a hollow array. -/
def hollowAccessors : ClassDecl → Nat
  | .decl _ fields methods nested =>
    total FieldDecl.hollowAccessors fields +
      (total MethodDecl.hollowAccessors methods + hollowAccessorsList nested)

/-- How many requests in classes are put to a hollow array. -/
def hollowAccessorsList : List ClassDecl → Nat
  | [] => 0
  | first :: rest => first.hollowAccessors + hollowAccessorsList rest

end

end ClassDecl

/-- How many requests for a message in a unit are put to a hollow array. -/
def CompilationUnit.hollowAccessors (unit : CompilationUnit) : Nat :=
  ClassDecl.hollowAccessorsList unit.classes

namespace Tariff

variable {count : Nat}

/-- The tariff inside a class. -/
def within (tariff : Tariff) (owner : String) : Tariff := { tariff with owner }

/-- The logger that the class may be given. -/
def request (tariff : Tariff) : FieldRequest where
  ownerType := tariff.owner
  fieldName := tariff.loggerName
  framework := tariff.target

/-! ## Weights -/

/-- The field is a logger of another framework than the target. -/
def mayMove (tariff : Tariff) (field : FieldDecl) : Bool :=
  (Framework.ofLoggerType? field.type.typeName).any (· != tariff.target)

/-- The weight of a field. The new initializer of a logger that moves weighs up to four times as much
as the old one and some more. -/
def fieldWeight (tariff : Tariff) (field : FieldDecl) : Nat :=
  let initial := total tariff.weight field.initializer.toList
  (if tariff.mayMove field then 4 * initial + 1000 else initial) +
    if field.modifiers.visibility = .privateAccess then 0 else 1

/-- The weight of the body of a method. -/
def methodWeight (tariff : Tariff) (method : MethodDecl) : Nat := tariff.blockWeight method.body

/-- What a class has in reserve for the logger that it may be given. -/
def reserve (tariff : Tariff) (fields : List FieldDecl) : Nat :=
  if fields.any (·.name == tariff.loggerName) then 0
  else tariff.fieldWeight tariff.request.declaration

/-- The weight of the fields of a class. -/
def fieldsWeight (tariff : Tariff) (fields : List FieldDecl) : Nat :=
  total tariff.fieldWeight fields + tariff.reserve fields

mutual

/-- The weight of a class. -/
def classWeight (tariff : Tariff) : ClassDecl → Nat
  | .decl header fields methods nested =>
    (tariff.within header.fqn).fieldsWeight fields +
      (total (tariff.within header.fqn).methodWeight methods + tariff.classesWeight nested)

/-- The weight of classes. -/
def classesWeight (tariff : Tariff) : List ClassDecl → Nat
  | [] => 0
  | first :: rest => tariff.classWeight first + tariff.classesWeight rest

end

/-- The weight of a unit. -/
def unitWeight (tariff : Tariff) (unit : CompilationUnit) : Nat := tariff.classesWeight unit.classes

/-! ## Members -/

variable {tariff : Tariff}

/-- What eases inside a class eases. -/
theorem Eases.ofWithin {α : Type} {owner : String} {hollow weight : α → Nat}
    {before after : α} (eases : (tariff.within owner).Eases hollow weight count before after) :
    tariff.Eases hollow weight count before after :=
  ⟨eases.sound, eases.lighter⟩

/-- A field eases and keeps its name. -/
structure LightensField (tariff : Tariff) (count : Nat) (before after : FieldDecl) : Prop
    extends tariff.Eases FieldDecl.hollowAccessors tariff.fieldWeight count before after where
  name : after.name = before.name

theorem LightensField.refl (field : FieldDecl) : tariff.LightensField 0 field field where
  toEases := .refl field
  name := rfl

theorem LightensField.trans {more : Nat} {first second third : FieldDecl}
    (former : tariff.LightensField count first second)
    (latter : tariff.LightensField more second third) :
    tariff.LightensField (count + more) first third where
  toEases := former.toEases.trans latter.toEases
  name := latter.name.trans former.name

/-- Nodes that ease one by one ease together. -/
theorem eases_total {α : Type} {hollow weight : α → Nat} {related : Nat → α → α → Prop}
    (eases : ∀ count before after, related count before after →
      tariff.Eases hollow weight count before after) {before after : List α}
    (each : Pass.Each related count before after) :
    tariff.Eases (total hollow) (total weight) count before after := by
  induction each with
  | nil => exact .refl []
  | cons holds _ ih =>
    exact (eases _ _ _ holds).add ih rfl rfl rfl rfl

theorem map_name_eq {before after : List FieldDecl}
    (each : Pass.Each tariff.LightensField count before after) :
    after.map (·.name) = before.map (·.name) := by
  induction each with
  | nil => rfl
  | cons lightens _ ih =>
    rw [List.map_cons, List.map_cons, lightens.name, ih]

/-- Fields that ease one by one ease together, and the class may be given a logger as before. -/
theorem eases_fields {before after : List FieldDecl}
    (each : Pass.Each tariff.LightensField count before after) :
    tariff.Eases (total FieldDecl.hollowAccessors) tariff.fieldsWeight count before after := by
  have eases := eases_total (fun _ _ _ lightens => lightens.toEases) each
  have names : after.any (·.name == tariff.loggerName) = before.any (·.name == tariff.loggerName) := by
    have := congrArg (·.any (· == tariff.loggerName)) (map_name_eq each)
    simp only [List.any_map] at this
    exact this
  refine ⟨eases.sound, fun admits => ?_⟩
  have := eases.lighter admits
  rw [fieldsWeight, fieldsWeight, reserve, reserve, names]
  omega

/-- An initializer that has got lighter makes its field lighter. -/
theorem lightensField_of_held {field : FieldDecl} {initializer : Option Expr}
    (held : Pass.Held tariff.Lightens count field.initializer initializer) :
    tariff.LightensField count field { field with initializer } := by
  have eases : tariff.Eases (total Expr.hollowAccessors) (total tariff.weight) count
      field.initializer.toList initializer.toList := by
    generalize field.initializer = initial at held
    cases held with
    | none => exact .refl _
    | some lightens =>
      have empty : tariff.Eases (total Expr.hollowAccessors) (total tariff.weight) 0 [] [] := .refl []
      exact lightens.toEases.add empty rfl rfl rfl rfl
  refine ⟨⟨eases.sound, fun admits => ?_⟩, rfl⟩
  have := eases.lighter admits
  have same : tariff.mayMove { field with initializer } = tariff.mayMove field := rfl
  simp only [fieldWeight, same]
  split <;> omega

/-- A method with a lighter body is lighter. -/
theorem eases_method {method : MethodDecl} {body : List Statement}
    (lightens : tariff.LightensBlock count method.body body) :
    tariff.Eases MethodDecl.hollowAccessors tariff.methodWeight count method { method with body } :=
  ⟨lightens.sound, lightens.lighter⟩

/-- The class is given a logger if it has none and one is requested. -/
theorem declareRequested_cases {requests : List FieldRequest} {request : FieldRequest}
    (own : ∀ asked ∈ requests, asked = request) (fields : List FieldDecl) :
    Pass.declareRequested requests fields = fields ∨
      fields.any (·.name == request.fieldName) = false ∧
        Pass.declareRequested requests fields = request.declaration :: fields := by
  induction requests with
  | nil => exact .inl rfl
  | cons asked rest ih =>
    have step : Pass.declareRequested (asked :: rest) fields =
        if (Pass.declareRequested rest fields).any (·.name == asked.fieldName) then
          Pass.declareRequested rest fields
        else asked.declaration :: Pass.declareRequested rest fields := rfl
    rw [step, own asked List.mem_cons_self]
    obtain same | ⟨free, given⟩ :=
      ih fun other member => own other (List.mem_cons_of_mem asked member)
    · rw [same]
      cases taken : fields.any (·.name == request.fieldName) with
      | true => exact .inl rfl
      | false => exact .inr ⟨rfl, rfl⟩
    · have named : (request.declaration :: fields).any (·.name == request.fieldName) = true := by
        simp [FieldRequest.declaration]
      rw [given, named, if_pos rfl]
      exact .inr ⟨free, rfl⟩

/-- There are no hollow requests in the declaration of a requested logger. -/
theorem hollowAccessors_declaration (request : FieldRequest) :
    request.declaration.hollowAccessors = 0 := by
  obtain ⟨owner, name, framework, isStatic, isFinal⟩ := request
  cases framework <;> rfl

/-- A class that is given the logger that it has in reserve is as heavy as before. -/
theorem eases_declareRequested {requests : List FieldRequest}
    (own : ∀ asked ∈ requests, asked = tariff.request) (fields : List FieldDecl) :
    tariff.Eases (total FieldDecl.hollowAccessors) tariff.fieldsWeight 0 fields
      (Pass.declareRequested requests fields) := by
  obtain same | ⟨free, given⟩ := declareRequested_cases own fields
  · rw [same]
    exact .refl fields
  · have named : (tariff.request.declaration :: fields).any (·.name == tariff.loggerName) = true := by
      simp [FieldRequest.declaration, request]
    have free : fields.any (·.name == tariff.loggerName) = false := free
    rw [given]
    refine ⟨fun clean => ?_, fun _ => ?_⟩
    · rw [total_cons, hollowAccessors_declaration, clean]
    · rw [fieldsWeight, fieldsWeight, reserve, reserve, named, free, total_cons]
      simp only [if_true, Bool.false_eq_true, if_false]
      omega

/-- Classes that ease one by one ease together. -/
theorem eases_classes {before after : List ClassDecl}
    (each : Pass.Each (tariff.Eases ClassDecl.hollowAccessors tariff.classWeight) count before after) :
    tariff.Eases ClassDecl.hollowAccessorsList tariff.classesWeight count before after := by
  induction each with
  | nil => exact .refl []
  | cons eases _ ih =>
    refine eases.add ih ?_ ?_ ?_ ?_
    · rw [ClassDecl.hollowAccessorsList]
    · rw [ClassDecl.hollowAccessorsList]
    · rw [classesWeight]
    · rw [classesWeight]

/-! ## Rules -/

/-- The field that is asked for is the one that the class has in reserve. -/
def Asks (tariff : Tariff) (effects : Effects) : Prop :=
  ∀ request, effects.field = some request → request = tariff.request

/-- The rule answers every offer in the class, and what it puts in place of a node is lighter. -/
structure Suits (tariff : Tariff) (rule : Rule) : Prop where
  answers : Pass.Answers rule
  replaces : rule.Replaces
    (fun expr scope replacement => scope.current.fqn = tariff.owner →
      tariff.Lightens 1 expr replacement.expr ∧ tariff.Asks replacement.effects)
    (fun block scope replacement => scope.current.fqn = tariff.owner →
      tariff.LightensBlock 1 block replacement.statements ∧ tariff.Asks replacement.effects)
    (fun field _ scope replacement => scope.current.fqn = tariff.owner →
      tariff.LightensField 1 field replacement.field)

/-- The pass stands in the class, which has asked for nothing but what it has in reserve. -/
abbrev Sees (tariff : Tariff) : Progress → Prop := Pass.StandsIn (· = tariff.owner) (· = tariff.request)

section Visits

variable {rules : List Rule} {slack : Nat}

/-- Rules that suit the class lighten all that stands in it. -/
theorem visitRelation_of_suits (suits : ∀ rule ∈ rules, tariff.Suits rule) :
    Pass.VisitRelation rules tariff.Sees (fun _ => tariff.Lightens)
      (fun _ => tariff.LightensBlock) tariff.Lightens tariff.LightensBlock :=
  visitRelation
    (fun depth rule member expr => Pass.yields_offerExpr (fun _ _ => Pass.StandsIn.of_uncounted_eq)
      (.refl expr) fun progress _ sees applies made _ =>
        have owner : (progress.scope.goDown depth).current.fqn = tariff.owner := sees.1
        have ⟨lightens, asks⟩ := (suits rule member).replaces.onExpr applies made owner
        ⟨sees.absorb asks, lightens⟩)
    (fun depth rule member block => Pass.yields_offerBlock (fun _ _ => Pass.StandsIn.of_uncounted_eq)
      (.refl block) fun progress _ sees made =>
        have owner : (progress.scope.goDown depth).current.fqn = tariff.owner := sees.1
        have ⟨lightens, asks⟩ := (suits rule member).replaces.onBlock made owner
        ⟨sees.absorb asks, lightens⟩)

/-- Rules that suit the class lighten its fields. -/
theorem yields_offerFields (suits : ∀ rule ∈ rules, tariff.Suits rule)
    (around : FieldDecl → ClassDecl) (field : FieldDecl) :
    Pass.Yields tariff.Sees (tariff.LightensField · field)
      (rules.foldlM (Pass.offerField around) field) :=
  Pass.Yields.foldOffers LightensField.refl LightensField.trans rules field
    fun rule member field => Pass.yields_offerField (fun _ _ => Pass.StandsIn.of_uncounted_eq) (.refl field)
      fun _ _ sees made => ⟨sees, (suits rule member).replaces.onField made sees.1⟩

/-- **A pass makes a class lighter.** The number of replacements comes off its weight. -/
theorem carriesOver_eases (suits : ∀ owner, ∀ rule ∈ rules, (tariff.within owner).Suits rule) :
    Pass.CarriesOver rules slack (tariff.Eases ClassDecl.hollowAccessors tariff.classWeight) := by
  intro header fields methods nested depth scope owned inner progress visited after _ run
  obtain ⟨first, second, third, fourth, offered, initialized, called, others, last, sees, counted,
    onFields, onInitializers, onMethods, onNested, rfl⟩ :=
    (visitRelation_of_suits (suits header.fqn)).visitDecl (yields_offerFields (suits header.fqn))
      (fun _ _ sees => sees) inner ⟨owned, List.forall_mem_nil _⟩ run
  refine ⟨trivial, first + second + (third + fourth), counted, ?_⟩
  have onInitializers : Pass.Each (tariff.within header.fqn).LightensField second offered
      initialized :=
    onInitializers.imp fun _ _ _ ⟨_, same, held⟩ => same ▸ lightensField_of_held held
  have onFields := (eases_fields onFields).trans
    ((eases_fields onInitializers).trans (eases_declareRequested sees.2 initialized))
  have onMethods := eases_total (fun _ _ _ ⟨_, same, lightens⟩ => same ▸ eases_method lightens)
    onMethods
  refine onFields.ofWithin.add (onMethods.ofWithin.pair (eases_classes onNested)) ?_ ?_ ?_ ?_
  · rw [ClassDecl.hollowAccessors]
  · rw [ClassDecl.hollowAccessors]
  · rw [classWeight]
  · rw [classWeight]

/-- **A pass makes a unit lighter.** The number of replacements comes off its weight. -/
theorem eases_visitUnit (suits : ∀ owner, ∀ rule ∈ rules, (tariff.within owner).Suits rule)
    (unit : CompilationUnit) :
    Pass.Yields (fun _ => True)
      (tariff.Eases CompilationUnit.hollowAccessors tariff.unitWeight · unit)
      (Pass.visitUnit rules slack unit) := by
  intro progress visited after _ run
  obtain ⟨count, counted, each⟩ := (carriesOver_eases suits).visitUnit run
  have eases := eases_classes each
  refine ⟨trivial, count, counted, ?_, ?_⟩
  · rw [CompilationUnit.hollowAccessors, CompilationUnit.hollowAccessors]
    exact eases.sound
  · rw [CompilationUnit.hollowAccessors, unitWeight, unitWeight]
    exact eases.lighter

end Visits

end Tariff

end LogCalls
