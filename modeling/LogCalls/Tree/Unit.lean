import LogCalls.Tree.Equality

/-! # Compilation units

Classes with their fields, methods and nested classes, and the source file they stand in. -/

namespace LogCalls

/-- The modifiers of a member. -/
structure Modifiers where
  visibility : Visibility := .packageAccess
  isStatic : Bool := false
  isFinal : Bool := false
  deriving DecidableEq, Repr

/-- A field of a class. -/
structure FieldDecl where
  name : String
  type : JavaType
  modifiers : Modifiers := {}
  initializer : Option Expr := none
  deriving DecidableEq

/-- A parameter of a method. -/
structure Parameter where
  name : String
  type : JavaType
  deriving DecidableEq

/-- A method of a class. Without a return type it returns nothing. -/
structure MethodDecl where
  name : String
  modifiers : Modifiers := {}
  returnType : Option JavaType := none
  parameters : List Parameter := []
  body : List Statement := []
  deriving DecidableEq

/-- Classes proper and interfaces. -/
inductive ClassKind where
  | classKind
  | interfaceKind
  deriving DecidableEq, Repr

/-- What a class says about itself, apart from its members. -/
structure ClassHeader where
  /-- The name as written in the declaration. -/
  name : String
  /-- The full name. -/
  fqn : String
  kind : ClassKind := .classKind
  isAbstract : Bool := false
  /-- Full names of the annotations. -/
  annotations : List String := []
  supertype : Option ClassType := none
  deriving DecidableEq

/-- A class or interface with its members. -/
inductive ClassDecl where
  /-- The header, the members, and the classes declared inside. -/
  | decl (header : ClassHeader) (fields : List FieldDecl) (methods : List MethodDecl)
      (nested : List ClassDecl)

namespace ClassDecl

/-- What the class says about itself. -/
def header : ClassDecl → ClassHeader
  | .decl header _ _ _ => header

/-- The declared fields. -/
def fields : ClassDecl → List FieldDecl
  | .decl _ fields _ _ => fields

/-- The declared methods. -/
def methods : ClassDecl → List MethodDecl
  | .decl _ _ methods _ => methods

/-- The classes declared inside. -/
def nested : ClassDecl → List ClassDecl
  | .decl _ _ _ nested => nested

/-- The full name of the class. -/
def fqn (declared : ClassDecl) : String := declared.header.fqn

/-- A class without members. -/
def empty (fqn : String) : ClassDecl := .decl { name := simpleName fqn, fqn } [] [] []

section Members

variable (header : ClassHeader) (fields : List FieldDecl) (methods : List MethodDecl)
  (nested : List ClassDecl)

/-- The header of a declaration. -/
@[simp] theorem header_decl : (decl header fields methods nested).header = header := rfl

/-- The fields of a declaration. -/
@[simp] theorem fields_decl : (decl header fields methods nested).fields = fields := rfl

/-- The methods of a declaration. -/
@[simp] theorem methods_decl : (decl header fields methods nested).methods = methods := rfl

/-- The classes inside a declaration. -/
@[simp] theorem nested_decl : (decl header fields methods nested).nested = nested := rfl

end Members

mutual

/-- Two classes are the same tree. -/
def same : ClassDecl → ClassDecl → Bool
  | .decl h fs ms ns, .decl h' fs' ms' ns' =>
    h == h' && fs == fs' && ms == ms' && sameList ns ns'
termination_by structural first => first

/-- Two lists of classes are the same. -/
def sameList : List ClassDecl → List ClassDecl → Bool
  | [], [] => true
  | a :: as, b :: bs => a.same b && sameList as bs
  | _, _ => false
termination_by structural first => first

end

mutual

/-- Comparison node by node decides equality of classes. -/
theorem same_iff : ∀ a b : ClassDecl, a.same b = true ↔ a = b
  | .decl _ _ _ ns, .decl _ _ _ _ => by simp [same, sameList_iff ns, and_assoc]

/-- Comparison decides equality of lists of classes. -/
theorem sameList_iff : ∀ as bs : List ClassDecl, sameList as bs = true ↔ as = bs
  | [], bs => by cases bs <;> simp [sameList]
  | a :: as, bs => by cases bs <;> simp [sameList, same_iff a, sameList_iff as]

end

instance : DecidableEq ClassDecl := fun a b => decidable_of_iff _ (same_iff a b)

end ClassDecl

/-- An import of a class, or of a static member. -/
structure Import where
  typeName : String
  isStatic : Bool := false
  deriving DecidableEq, Repr

/-- One source file. -/
structure CompilationUnit where
  /-- Where the file was found. -/
  sourcePath : Option String := none
  package : Option String := none
  imports : List Import := []
  classes : List ClassDecl := []
  deriving DecidableEq

end LogCalls
