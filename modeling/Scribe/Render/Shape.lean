import Scribe.Render.Name
import Scribe.Text.Lines
import Scribe.Tree.Locals

/-!
# Shapes of expressions and statements

The parts of the rendered code that do not depend on how their inner parts were rendered: operator
symbols, parentheses, blocks of items, bodies in braces, conditions and comments. Each takes the
scripts of its parts.
-/

namespace Scribe

open Script

/-- What a table has under the word that a slot holds. -/
def Value.lookup? (table : List (String × String)) : Value → Option String
  | .scalar (.text word) => table.lookup word
  | _ => none

/-- The fault of a slot that holds none of the words of a table. Scalars and variables can be looked
up, and nothing else. -/
def Value.unknown (category : Category) : Value → Fault
  | .scalar s => .unsupported category s.found
  | .entity ⟨.variable, _⟩ => .unsupported category (.kind "VariableDeclaration")
  | _ => .illTyped

/-- Operators between their operands. -/
def binarySymbol? : Value → Option String := Value.lookup? [
  ("add", "+"), ("subtract", "-"), ("multiply", "*"), ("divide", "/"), ("modulus", "%"),
  ("shift_left", "<<"), ("shift_right", ">>"), ("identity_equality", "==="),
  ("identity_inequality", "!=="), ("value_equality", "==="), ("value_inequality", "!=="),
  ("bitwise_or", "|"), ("bitwise_and", "&"), ("bitwise_exclusive_or", "^"), ("boolean_or", "||"),
  ("boolean_and", "&&"), ("less_than", "<"), ("less_than_or_equal", "<="), ("greater_than", ">"),
  ("greater_than_or_equal", ">=")]

/-- Operators before their operand. -/
def leadingSymbol? : Value → Option String := Value.lookup? [
  ("negate", "-"), ("boolean_not", "!"), ("bitwise_not", "~"), ("pre_increment", "++"),
  ("pre_decrement", "--")]

/-- Operators after their operand. -/
def trailingSymbol? : Value → Option String := Value.lookup? [
  ("post_increment", "++"), ("post_decrement", "--")]

namespace Script

def between (opening closing : String) (inner : Script) : Script :=
  text opening ++ inner ++ text closing

def parenthesized (inner : Script) : Script := between "(" ")" inner

def bracketed (inner : Script) : Script := between "[" "]" inner

/-- An operator before or after its operand. -/
def unary (operator : Value) (operand : Script) : Script :=
  match leadingSymbol? operator, trailingSymbol? operator with
  | some symbol, _ => text symbol ++ operand
  | none, some symbol => operand ++ text symbol
  | none, none => fail (operator.unknown .unaryOperator)

/-- An operator between its operands, in parentheses. -/
def binary (operator : Value) (left right : Script) : Script :=
  match binarySymbol? operator with
  | some symbol => parenthesized (left ++ text (" " ++ symbol ++ " ") ++ right)
  | none => fail (operator.unknown .binaryOperator)

/-- Items of a block break the line after every sixteenth. -/
def blockWidth : Nat := 16

/-- The items of a block, of which the first has `index` items before it. -/
def blockItems (index : Nat) : List Script → Script
  | [] => ∅
  | item :: rest =>
    (if index = 0 then ∅
      else if index % blockWidth = 0 then text "," ++ lineBreak
      else text ", ") ++ item ++ blockItems (index + 1) rest

/-- Items in brackets, on lines of their own when there are more than one line holds. -/
def block (items : List Script) : Script :=
  if blockWidth < items.length then
    text "[" ++ token .indent ++ lineBreak ++ blockItems 0 items ++ token .outdent ++ lineBreak ++
      text "]"
  else text "[" ++ blockItems 0 items ++ text "]"

/-- The statements of a body and the separator after the last of them. -/
def body (statements : Script) : Script := step .openBody ++ statements ++ step .closeBody

/-- A body in braces after what stands on the line. -/
def braced (statements : Script) : Script :=
  text " \x7b" ++ lineBreak ++ indented (body statements) ++ text "\x7d" ++ step (.terminate false)

/-- A statement that ends in a terminator. -/
def simple (inner : Script) : Script := step .separator ++ inner ++ step (.terminate true)

/-- One line after `//`, or several between `/*` and `*/`. -/
def comment (lines : List String) : Script :=
  match lines with
  | [] => text "// "
  | [line] => text ("// " ++ line)
  | lines => text "/*" ++ lineBreak ++ concat (lines.map fun line => text line ++ lineBreak) ++
      text "*/"

/-- Throws again what a catch clause without a variable of its own caught. -/
def rethrow : Script := simple (text "throw " ++ text "e")

/-- One label of a switch. -/
def caseLabel (value : Script) : Script := text "case " ++ value ++ text ":" ++ lineBreak

end Script

namespace Value

/-- The script of an optional slot, which may be empty. -/
def optionally (v : Value) (rendered : Script) : Script := if v.isNull then ∅ else rendered

/-- The script of a slot for a block, which is left out when the block has no statements. -/
def unlessEmpty (v : Value) (rendered : Script) : Script :=
  match v with
  | .stmt (.block statements) => if statements.isSet then rendered else ∅
  | _ => fail .malformed

/-- Whether an expression needs parentheses before a dot. -/
def isLoose : Value → Bool
  | .expr (.binary ..) | .expr (.unary ..) | .expr (.assign ..) | .expr (.lambda ..)
  | .expr (.function ..) => true
  | _ => false

/-- What a member is taken of, up to the dot. -/
def asTarget (v : Value) (rendered : Script) : Script :=
  v.optionally ((if v.isLoose then parenthesized rendered else rendered) ++ text ".")

/-- A condition in parentheses; a binary expression has its own. -/
def asCondition (v : Value) (rendered : Script) : Script :=
  match v with
  | .scalar .null => text "(true)"
  | .expr (.binary ..) => rendered
  | _ => parenthesized rendered

/-- A called expression, in parentheses unless it is a method. -/
def asCallee (v : Value) (rendered : Script) : Script :=
  match v with
  | .expr (.method ..) => rendered
  | _ => parenthesized rendered

/-- Whether dimensions are the one literal zero. -/
def areZero : Value → Bool
  | .list [.expr (.literal (.scalar (.int 0)) _)] => true
  | _ => false

/-- What an initializer lists: the items of a block, or an ordering that stands in for one. -/
def listed? : Value → Option Value
  | .expr (.block items) => some items
  | .clause (.order items) => some items
  | _ => none

/-- The variable that an assignment is to. -/
def assignedVariable? : Value → Option Value
  | .expr (.assign (.expr (.declare bound)) _) => some bound
  | .expr (.assign (.expr (.variable bound)) _) => some bound
  | _ => none

/-- A declaration alone is no statement: the variable is declared with the others of its body. -/
def isDeclaration : Value → Bool
  | .expr (.declare _) => true
  | _ => false

end Value

end Scribe
