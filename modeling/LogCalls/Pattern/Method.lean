import LogCalls.Error
import LogCalls.Pattern.Glob
import LogCalls.Tree.Expr

/-! # Method patterns

Patterns such as `org.slf4j.Logger info(..)` that calls are selected by: a glob for the declaring
class, a glob for the method's name, and a list of argument patterns. -/

namespace LogCalls

/-- What an argument pattern admits. -/
inductive ArgumentPattern where
  /-- One argument of any type, written `*`. -/
  | anyOne
  /-- Any number of arguments, written `..`. -/
  | rest
  /-- One argument of the named type. A name with a dot is a full name. -/
  | typed (name : String)
  deriving DecidableEq, Repr

/-- A pattern for calls. -/
structure MethodPattern where
  /-- The pattern as it was given, without blanks around it. -/
  text : String
  declaringType : List Char
  methodName : List Char
  arguments : List ArgumentPattern

namespace ArgumentPattern

/-- The argument pattern that a text spells. -/
def ofText (text : List Char) : ArgumentPattern :=
  if text = ['*'] then .anyOne
  else if text = ['.', '.'] then .rest
  else .typed (String.ofList text)

/-- Patterns separated by commas; blanks around them do not matter, and empty ones are skipped. -/
def listOfText (text : List Char) : List ArgumentPattern :=
  (((text.splitOn ',').map Text.trim).filter (!·.isEmpty)).map ofText

/-- The argument is admitted on its own. -/
def admits (pattern : ArgumentPattern) (argument : Expr) : Bool :=
  match pattern with
  | anyOne => true
  | rest => true
  | typed name => argument.hasType fun type =>
    if name.toList.contains '.' then type.typeName == name || type.isAssignableTo name
    else type.sourceName == name

/-- What an argument pattern takes of a list of arguments. -/
def item (pattern : ArgumentPattern) : PatternItem Expr :=
  match pattern with
  | rest => .many fun _ => true
  | _ => .one pattern.admits

/-- The argument patterns admit the list of arguments. -/
def admitsAll (patterns : List ArgumentPattern) (arguments : List Expr) : Bool :=
  PatternItem.isMatch (patterns.map item) arguments

/-- The same question, answered by trying every number of arguments for `..`. With several of these that
takes far longer. -/
def admitsByTrial : List ArgumentPattern → List Expr → Bool
  | [], arguments => arguments.isEmpty
  | rest :: patterns, arguments =>
    (List.range (arguments.length + 1)).any fun skipped =>
      admitsByTrial patterns (arguments.drop skipped)
  | _ :: _, [] => false
  | pattern :: patterns, argument :: arguments =>
    pattern.admits argument && admitsByTrial patterns arguments

end ArgumentPattern

namespace MethodPattern

/-- The characters of the glob for the declaring class. -/
def isTypeChar (c : Char) : Bool := Text.isWordChar c || c == '.' || c == '$' || c == '*'

/-- The characters of the glob for the method's name. -/
def isMethodChar (c : Char) : Bool := Text.isWordChar c || c == '$' || c == '*'

/-- The three parts of a pattern: declaring class, method and arguments. -/
def parts? (text : List Char) : Option (List Char × List Char × List Char) :=
  let (declaringType, afterType) := (text.dropWhile Text.isBlank).span isTypeChar
  let (gap, afterGap) := afterType.span Text.isBlank
  let (methodName, afterName) := afterGap.span isMethodChar
  if declaringType.isEmpty || gap.isEmpty || methodName.isEmpty then none
  else match afterName.dropWhile Text.isBlank with
    | '(' :: inside =>
      let (arguments, afterArguments) := inside.span (· != ')')
      match afterArguments with
      | ')' :: trailing =>
        if trailing.all Text.isBlank then some (declaringType, methodName, arguments) else none
      | _ => none
    | _ => none

/-- The pattern that a text spells. Neither glob may take more room than the limit. -/
def parse (limit : Nat) (text : String) : Except Error MethodPattern :=
  match parts? text.toList with
  | some (declaringType, methodName, arguments) =>
    if Glob.size declaringType ≤ limit ∧ Glob.size methodName ≤ limit then
      .ok {
        text := String.ofList (Text.trim text.toList)
        declaringType, methodName, arguments := ArgumentPattern.listOfText arguments }
    else .error (.configuration (.invalidMethodPattern text))
  | none => .error (.configuration (.invalidMethodPattern text))

/-- The class is matched by the glob for declaring classes. -/
def matchesClass (pattern : MethodPattern) (fqn : String) : Bool :=
  Glob.isMatch pattern.declaringType fqn.toList

/-- The declaring class is matched, or else some class in the ancestry of the receiver's class. -/
def matchesOwner (pattern : MethodPattern) (declaringType : String) (select : Option Expr) : Bool :=
  pattern.matchesClass declaringType ||
    match (select.bind Expr.staticType).bind JavaType.classType? with
    | some type => type.ancestry.any fun entry => pattern.matchesClass entry.fqn
    | none => false

/-- The expression is a call that the pattern selects. -/
def isMatch (pattern : MethodPattern) : Expr → Bool
  | .methodCall select name arguments (some method) =>
    Glob.isMatch pattern.methodName name.toList &&
      pattern.matchesOwner method.declaringType select &&
      ArgumentPattern.admitsAll pattern.arguments arguments
  | _ => false

end MethodPattern

end LogCalls
