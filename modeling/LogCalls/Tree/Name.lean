/-! # Qualified names

Classes, packages and annotations are named by dotted names. `simpleName` is the part that source
text writes once the class is imported; `qualifier` is the part before it. -/

namespace LogCalls

/-- The last component of a dotted name, as written in source once the class is imported. -/
def simpleName (name : String) : String :=
  String.ofList ((name.toList.reverse.takeWhile (· != '.')).reverse)

/-- Everything before the last dot of a name; empty for a name without dots. -/
def qualifier (name : String) : String :=
  String.ofList ((name.toList.reverse.dropWhile (· != '.')).drop 1).reverse

namespace ClassName

/-- The class of strings. -/
def string : String := "java.lang.String"

/-- The root of the class hierarchy. -/
def object : String := "java.lang.Object"

/-- The root of everything that can be thrown. -/
def throwable : String := "java.lang.Throwable"

/-- The class of class objects. -/
def classObject : String := "java.lang.Class"

/-- The class that holds the console streams. -/
def system : String := "java.lang.System"

/-- The class of the console streams. -/
def printStream : String := "java.io.PrintStream"

end ClassName

end LogCalls
