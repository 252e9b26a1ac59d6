import LogCalls.Tree.Name

/-! # Static types

The types that a front end has attached to the nodes of a tree. A class type carries as much of its
hierarchy as is known: its own declared fields, then those of each ancestor, nearest first. -/

namespace LogCalls

/-- Types written with a keyword. Strings are listed here as well, since front ends may report them
either way; `null` and `void` are the types of the null literal and of calls without a result. -/
inductive Primitive where
  | boolean
  | byte
  | char
  | short
  | int
  | long
  | float
  | double
  | string
  | null
  | void
  deriving DecidableEq, Repr

/-- The word that source text uses for the type. -/
def Primitive.keyword : Primitive → String
  | boolean => "boolean"
  | byte => "byte"
  | char => "char"
  | short => "short"
  | int => "int"
  | long => "long"
  | float => "float"
  | double => "double"
  | string => "String"
  | null => "null"
  | void => "void"

/-- Who may see a member. -/
inductive Visibility where
  | publicAccess
  | protectedAccess
  /-- Visible in the package only, which is what source text without a modifier means. -/
  | packageAccess
  | privateAccess
  deriving DecidableEq, Repr

/-- The modifier that source text uses, if there is one. -/
def Visibility.keyword? : Visibility → Option String
  | publicAccess => some "public"
  | protectedAccess => some "protected"
  | packageAccess => none
  | privateAccess => some "private"

/-- A field as seen through a class type. -/
structure MemberField where
  name : String
  /-- Full name of the field's type. -/
  typeName : String
  visibility : Visibility := .packageAccess
  isStatic : Bool := false
  deriving DecidableEq, Repr

/-- One class of a hierarchy, with the fields it declares. -/
structure ClassEntry where
  /-- Full name of the class. -/
  fqn : String
  fields : List MemberField := []
  deriving DecidableEq, Repr

/-- A class type: the class itself and its known ancestors, nearest first. -/
structure ClassType extends ClassEntry where
  ancestors : List ClassEntry := []
  deriving DecidableEq, Repr

namespace ClassType

/-- A class of which nothing but the name is known. -/
def named (fqn : String) : ClassType := { fqn }

/-- The class and then each ancestor, nearest first. -/
def ancestry (type : ClassType) : List ClassEntry := type.toClassEntry :: type.ancestors

/-- The class or one of its ancestors has the given name. -/
def isAssignableTo (type : ClassType) (fqn : String) : Bool :=
  type.ancestry.any fun entry => entry.fqn == fqn

end ClassType

/-- Static types. -/
inductive JavaType where
  | primitive (kind : Primitive)
  | classType (type : ClassType)
  | array (element : JavaType)
  deriving DecidableEq, Repr

namespace JavaType

/-- The type of strings. -/
def string : JavaType := .primitive .string

/-- A class type of which nothing but the name is known. -/
def named (fqn : String) : JavaType := .classType (.named fqn)

/-- The type is that of strings, however the front end reports it. -/
def isString : JavaType → Bool
  | .primitive kind => kind == .string
  | .classType type => type.fqn == ClassName.string
  | .array _ => false

/-- A value of the type can be used where the named class is wanted. -/
def isAssignableTo (fqn : String) : JavaType → Bool
  | .primitive kind => kind == .string && (fqn == ClassName.string || fqn == ClassName.object)
  | .classType type => type.isAssignableTo fqn
  | .array _ => false

/-- Values of the type can be thrown. -/
def isThrowable (type : JavaType) : Bool := type.isAssignableTo ClassName.throwable

/-- The type is an array type. -/
def isArray : JavaType → Bool
  | .array _ => true
  | _ => false

/-- The full name of a class, the keyword of any other type. -/
def typeName : JavaType → String
  | .primitive .string => ClassName.string
  | .primitive kind => kind.keyword
  | .classType type => type.fqn
  | .array element => element.typeName ++ "[]"

/-- The name as written in source, where classes are imported. -/
def sourceName : JavaType → String
  | .primitive kind => kind.keyword
  | .classType type => simpleName type.fqn
  | .array element => element.sourceName ++ "[]"

/-- The class type, of a type that is one. -/
def classType? : JavaType → Option ClassType
  | .classType type => some type
  | _ => none

end JavaType

/-- The method that an invocation resolves to. -/
structure ResolvedMethod where
  /-- Full name of the class that declares the method. -/
  declaringType : String
  name : String
  returnType : Option JavaType := none
  isStatic : Bool := false
  deriving DecidableEq, Repr

namespace ResolvedMethod

/-- An instance method without a result. -/
def onInstance (declaringType name : String) : ResolvedMethod :=
  { declaringType, name, returnType := some (.primitive .void) }

/-- An instance method with a result. -/
def onInstanceReturning (declaringType name : String) (type : JavaType) : ResolvedMethod :=
  { declaringType, name, returnType := some type }

/-- A static method with a result. -/
def onClassReturning (declaringType name : String) (type : JavaType) : ResolvedMethod :=
  { declaringType, name, returnType := some type, isStatic := true }

end ResolvedMethod

end LogCalls
