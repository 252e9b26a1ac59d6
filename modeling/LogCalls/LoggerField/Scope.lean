import LogCalls.Tree.Unit

/-! # Scopes

The surroundings of a node: the class it stands in, the classes that one is nested in, the file, and
how far down from the top of the file it is. -/

namespace LogCalls

/-- What is visible of a class from inside it. -/
structure ClassScope where
  fqn : String := ""
  annotations : List String := []
  fields : List FieldDecl := []
  supertype : Option ClassType := none

namespace ClassScope

/-- A class as seen from inside. -/
def ofClass (declared : ClassDecl) : ClassScope where
  fqn := declared.fqn
  annotations := declared.header.annotations
  fields := declared.fields
  supertype := declared.header.supertype

/-- The declared field of this name. -/
def field? (scope : ClassScope) (name : String) : Option FieldDecl :=
  scope.fields.find? (·.name == name)

/-- The class declares a field of this name. -/
def declares (scope : ClassScope) (name : String) : Bool := scope.fields.any (·.name == name)

/-- The name of the first inherited field that passes a test. Private fields are not inherited. -/
def inheritedField? (scope : ClassScope) (test : MemberField → Bool) : Option String := do
  let supertype ← scope.supertype
  let field ← supertype.ancestry.findSome? fun entry =>
    entry.fields.find? fun field => field.visibility != .privateAccess && test field
  return field.name

/-- A field of this name is declared or inherited. -/
def hasFieldNamed (scope : ClassScope) (name : String) : Bool :=
  scope.declares name || (scope.inheritedField? (·.name == name)).isSome

/-- The class with a field put in front of those it declares. -/
def addField (scope : ClassScope) (field : FieldDecl) : ClassScope :=
  { scope with fields := field :: scope.fields }

end ClassScope

/-- What a rule sees of the surroundings of a node. -/
structure Scope where
  current : ClassScope := {}
  /-- The classes that the current one is nested in, innermost first. -/
  enclosing : List ClassScope := []
  /-- The file that the unit comes from. -/
  sourceFile : Option String := none
  /-- How many levels the node is down, counting classes and expressions. -/
  depth : Nat := 0
  /-- How many levels a pass goes down. -/
  maxDepth : Nat := 100

namespace Scope

/-- The scope of a class at the top level of a file. -/
def ofClass (declared : ClassDecl) (sourceFile : Option String := none) : Scope where
  current := .ofClass declared
  sourceFile := sourceFile
  depth := 1

/-- The scope of a class that is declared directly inside the current one. -/
def nested (scope : Scope) (declared : ClassDecl) : Scope :=
  { scope with
    current := .ofClass declared
    enclosing := scope.current :: scope.enclosing
    depth := scope.depth + 1 }

/-- The scope further down, where so many levels are left to go. -/
def goDown (scope : Scope) (left : Nat) : Scope :=
  { scope with depth := max scope.depth (scope.maxDepth - left) }

/-- The classes of the scope, innermost first. -/
def classes (scope : Scope) : List ClassScope := scope.current :: scope.enclosing

/-- The field that a receiver refers to: a bare name is looked for from the inside out, a name that
is qualified by a class in that class. -/
def fieldFor? (scope : Scope) (receiver : Expr) : Option FieldDecl :=
  match receiver.bare with
  | .identifier name _ => scope.classes.findSome? (·.field? name)
  | .fieldAccess (.typeRef fqn) name _ => do
      let owner ← scope.classes.find? (·.fqn == fqn)
      owner.field? name
  | _ => none

end Scope

end LogCalls
