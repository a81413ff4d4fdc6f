import Scribe.Entity
import Scribe.Scalar

/-!
# Program trees

Types, expressions and statements as trees. Every slot of a tree holds a `Value`, because a damaged
model may put anything anywhere: a slot can be empty, or hold a statement where an expression
belongs, or a field where a variable belongs, or a number where a list belongs, and only the reader
of the slot decides whether that matters. Entities are held by reference.
-/

namespace Scribe

mutual

/-- What a slot holds. -/
inductive Value
  | scalar (value : Scalar)
  | list (items : List Value)
  | entity (value : Entity)
  /-- The bounds of one array dimension; `-1` on either side means unbounded. They are plain data. -/
  | bounds (lower upper : Scalar)
  /-- A custom attribute: a call of a constructor. -/
  | attribute (constructor arguments : Value)
  | type (tree : TypeTree)
  | expr (tree : Expr)
  | stmt (tree : Stmt)
  | clause (tree : Clause)

/-- Types other than the named ones, which are entities. -/
inductive TypeTree
  | bare
  | array (element dimensions : Value)
  | pointer (element : Value)
  | reference (element : Value)
  | required (element modifier : Value)
  | optional (element modifier : Value)
  | functionPointer (result parameters : Value)
  | genericArgument (position target : Value)

/-- Expressions. -/
inductive Expr
  | bare
  | literal (value kind : Value)
  | assign (target value : Value)
  | typeOf (type : Value)
  | fieldOf (field type : Value)
  | methodOf (method type : Value)
  | initMember (member value : Value)
  | typeName (type : Value)
  | field (field target : Value)
  | event (event target : Value)
  | method (method target : Value)
  | property (property target : Value)
  | argumentList
  | stackAllocate (type size : Value)
  | block (items : Value)
  | arrayCreate (type dimensions initializer : Value)
  | base
  | this
  | unary (operator operand : Value)
  | binary (left operator right : Value)
  | tryCast (operand type : Value)
  | canCast (operand type : Value)
  | cast (operand type : Value)
  | condition (condition yes no : Value)
  | coalesce (subject fallback : Value)
  | delegateCreate (type method target : Value)
  | function (parameters body type : Value)
  | lambda (parameters body : Value)
  | argument (parameter : Value)
  | declare (bound : Value)
  | variable (bound : Value)
  | propertyIndexer (target indices : Value)
  | arrayIndexer (target indices : Value)
  | invoke (method arguments : Value)
  | delegateInvoke (target arguments : Value)
  | objectCreate (type constructor arguments initializer : Value)
  | addressOf (operand : Value)
  | addressReference (operand : Value)
  | addressOut (operand : Value)
  | dereference (operand : Value)
  | sizeOf (type : Value)
  | typeOfTyped (operand : Value)
  | valueOfTyped (operand type : Value)
  | createTyped (operand : Value)
  | genericDefault (type : Value)
  | snippet (text : Value)
  | query (source body : Value)

/-- Statements. -/
inductive Stmt
  | bare
  | block (statements : Value)
  | expression (expression : Value)
  /-- A jump to a label. `mark` tells it from other jumps, where a token leads to it. -/
  | goto (mark : Nat) (label : Value)
  /-- A statement with a label before it, and a mark like that of a jump. -/
  | labeled (mark : Nat) (label statement : Value)
  | condition (condition yes no : Value)
  | return (value : Value)
  | for (start condition increment body : Value)
  | forEach (bound source body : Value)
  | using (resource body : Value)
  | fixed (bound source body : Value)
  | while (condition body : Value)
  | do (condition body : Value)
  | try (body catches fault last : Value)
  | throw (value : Value)
  | attach (event listener : Value)
  | detach (event listener : Value)
  | switch (subject cases : Value)
  | break
  | continue
  | memoryCopy (source destination length : Value)
  | memoryFill (offset value length : Value)
  | debugBreak
  | lock (subject body : Value)
  | comment (text : Value)

/-- The parts of queries, and of try and switch statements. -/
inductive Clause
  | bare
  | bareClause
  | bareOperation
  | from (bound source : Value)
  | where (condition : Value)
  | let (bound value : Value)
  | join (bound source on equality into : Value)
  | ordering (key direction : Value)
  | order (orderings : Value)
  | select (value : Value)
  | group (item key : Value)
  | continuation (bound body : Value)
  | queryBody (operation clauses continuation : Value)
  | catch (body bound condition : Value)
  | bareCase (body : Value)
  | case (body condition : Value)
  | default (body : Value)

end

namespace Value

/-- An empty slot. -/
def null : Value := .scalar .null

/-- A slot that holds a text. -/
def ofText (s : String) : Value := .scalar (.text s)

/-- Whether a slot is empty. -/
def isNull : Value → Bool
  | .scalar .null => true
  | _ => false

/-- Whether a slot holds the given scalar, or a number that is equal to it. -/
def isScalar (s : Scalar) : Value → Bool
  | .scalar t => t.same s
  | _ => false

/-- Whether a slot holds the given text. -/
def isText (word : String) : Value → Bool
  | .scalar (.text s) => s == word
  | _ => false

/-- Whether what a slot holds counts as given: an empty list does not, and a node always does. -/
def isSet : Value → Bool
  | .scalar s => s.isSet
  | .list items => !items.isEmpty
  | _ => true

/-- Changes a text, and leaves all else as it is. -/
def mapText (f : String → String) : Value → Value
  | .scalar s => .scalar (s.mapText f)
  | v => v

/-- The place in the table of `kind` that a slot refers to, if it does. -/
def id? (kind : EntityKind) : Value → Option (Id kind)
  | .entity e => if e.kind = kind then some ⟨e.index⟩ else none
  | _ => none

end Value

end Scribe
