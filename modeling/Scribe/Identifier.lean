/-!
# Identifiers

How names are written where they are declared and where they are used. A reserved word is marked
with `@` at its declaration and with `&` at a use; constructors go by the name `Create`.
-/

namespace Scribe

namespace Identifier

/-- Words that cannot be written as names: keywords and literals of the language, words reserved in
strict mode and by older editions, and the names of restricted global bindings. -/
def reservedWords : List String := [
  "break", "case", "catch", "class", "const", "continue", "debugger", "default", "delete", "do",
  "else", "enum", "export", "extends", "false", "finally", "for", "function", "if", "import",
  "in", "instanceof", "new", "null", "return", "super", "switch", "this", "throw", "true", "try",
  "typeof", "var", "void", "while", "with", "await", "implements", "interface", "let", "package",
  "private", "protected", "public", "static", "yield", "abstract", "boolean", "byte", "char",
  "double", "final", "float", "goto", "int", "long", "native", "short", "synchronized", "throws",
  "transient", "volatile", "arguments", "eval", "undefined", "NaN", "Infinity"]

def isReserved (name : String) : Bool := reservedWords.contains name

/-- The names that constructors and type initializers have in a program. -/
def constructorNames : List String := [".ctor", ".cctor"]

/-- The names that give way to the constructor alias wherever a name is escaped. -/
def aliasedNames : List String := [".ctor", "..ctor"]

def constructorAlias : String := "Create"

/-- The readable names of operator overloads. -/
def operatorNames : List (String × String) := [
  ("op_UnaryPlus", "Positive"), ("op_Addition", "Add"), ("op_Increment", "Inc"),
  ("op_UnaryNegation", "Negative"), ("op_Subtraction", "Subtract"), ("op_Decrement", "Dec"),
  ("op_Multiply", "Multiply"), ("op_Division", "Divide"), ("op_Modulus", "Modulus"),
  ("op_BitwiseAnd", "BitwiseAnd"), ("op_BitwiseOr", "BitwiseOr"),
  ("op_ExclusiveOr", "BitwiseXor"), ("op_Negation", "LogicalNot"),
  ("op_OnesComplement", "BitwiseNot"), ("op_LeftShift", "ShiftLeft"),
  ("op_RightShift", "ShiftRight"), ("op_Equality", "Equal"), ("op_Inequality", "NotEqual"),
  ("op_GreaterThanOrEqual", "GreaterThanOrEqual"), ("op_LessThanOrEqual", "LessThanOrEqual"),
  ("op_GreaterThan", "GreaterThan"), ("op_LessThan", "LessThan"), ("op_True", "True"),
  ("op_False", "False"), ("op_Implicit", "Implicit"), ("op_Explicit", "Explicit")]

/-- Whether a name is that of a constructor or a type initializer. -/
def isConstructor (name : String) : Bool := constructorNames.contains name

/-- A name as written where it is declared. -/
def declared (name : String) : String :=
  if aliasedNames.contains name then constructorAlias
  else if isReserved name then "@" ++ name
  else name

/-- A name as written where it is used. -/
def referenced (name : String) : String :=
  if aliasedNames.contains name then constructorAlias
  else if isReserved name then "&" ++ name
  else name

/-- The name under which a method is declared, before it is escaped. Operator overloads are told by
a flag, not by their name alone. -/
def ofMethod (name : String) (special : Bool) : String :=
  if isConstructor name then constructorAlias
  else if special then (operatorNames.lookup name).getD name
  else name

end Identifier

end Scribe
