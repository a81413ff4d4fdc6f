import Scribe.Literal
import Scribe.Program.Same
import Scribe.Render.Shape

/-!
# Expressions and statements

The scripts of expressions and statements, by recursion on the trees. A function body inside an
expression opens with the variables that it declares and is otherwise a body like any other.

The script of a slot is delayed until a render gets to it, so a part may be mentioned in several
places of a definition and is rendered only where it is written.
-/

namespace Scribe

open Script

/-- The layers of a writer, each of which can write what those before it can. -/
inductive Layer
  | types | expressions | statements | declarations
deriving DecidableEq, Repr

namespace Layer

def rank : Layer → Nat
  | .types => 0
  | .expressions => 1
  | .statements => 2
  | .declarations => 3

/-- Whether a writer of this layer can write what belongs to the `other`. -/
def covers (layer other : Layer) : Bool := other.rank ≤ layer.rank

end Layer

/-- What a render depends on besides the tree itself. -/
structure Context where
  program : Program
  style : Style := {}
  layer : Layer := .declarations

namespace Context

/-- A property of a target, with the scripts of its arguments. -/
structure Access where
  property : Value
  target : Script
  arguments : List Script

/-- Reading a property calls its getter. -/
def read (c : Context) (access : Access) : Script :=
  match access.property with
  | .entity ⟨.property, i⟩ =>
    c.program.accessorCall ⟨i⟩ (c.program.property ⟨i⟩).getter access.target access.arguments
  | _ => fail .malformed

/-- Writing a property calls its setter, with the value after the other arguments. -/
def write (c : Context) (access : Access) (value : Script) : Script :=
  match access.property with
  | .entity ⟨.property, i⟩ =>
    c.program.accessorCall ⟨i⟩ (c.program.property ⟨i⟩).setter access.target
      (access.arguments ++ [value])
  | _ => fail .malformed

/-- The call that adds to a target, or subtracts from it. -/
def counterCall? (c : Context) (target left operator : Value) : Option String :=
  if operator.isText "add" && c.program.same left target then some "inc("
  else if operator.isText "subtract" && c.program.same left target then some "dec("
  else none

/-- An assignment to a property, or to anything else. -/
def assignment (c : Context) (access : Option Access) (target value : Script) : Script :=
  match access with
  | some access => c.write access value
  | none => target ++ text " = " ++ value

/-- The elements of a new array: those given, or as many as the dimensions say. -/
def newArray (initializer : Value) (isZero : Bool) (items : Option (List Script))
    (dimensions : List Script) : Script :=
  match items with
  | some items => Script.block items
  | none =>
    if !initializer.isNull then fail .malformed
    else if isZero then text "[]"
    else between "Array(" ")" (commaSeparated dimensions)

/-- The members that a new object is given at once, if there are any. -/
def newMembers (initializer : Value) (items : Option (List Script)) : Script :=
  match initializer.listed?, items with
  | some listed, some items => if listed.isSet then text " " ++ Script.block items else ∅
  | _, _ => if initializer.isNull then ∅ else fail .malformed

/-- The declarations that open a function body. -/
def declarations (c : Context) (body : Value) : Script :=
  given (c.program.hoisted body) fun locals =>
    step (.log (.hoisted locals.length)) ++
      concat (locals.map fun id =>
        text "var " ++ c.program.variableDeclaration (.entity id.entity) ++ text ";" ++ lineBreak)

/-- A function body with the script of its statements, for a layer that can write them. -/
def functionBody (c : Context) (body : Value) (statements : Script) : Script :=
  if c.layer.covers .statements then
    step .enter ++ c.declarations body ++ Script.body statements ++ step .leave
  else fail .noStatements

/-- The head of a catch clause. -/
def catchHead (c : Context) (bound : Value) : Script :=
  lineBreak ++ between "catch (" ")"
    (if bound.isNull then text "e" else c.program.variableDeclaration bound)

/-- The lines of a comment. -/
def commentLines : Value → Except Fault (List String)
  | .scalar (.text s) => .ok (Text.lines s)
  | _ => .error .malformed

/-- What a guarded resource is first assigned to. -/
def acquire (resource : Value) (rendered : Script) : Script :=
  if resource.assignedVariable?.isSome then simple rendered else ∅

/-- What a guarded resource is disposed of by. -/
def release (c : Context) (resource : Value) (rendered : Script) : Script :=
  (match resource.assignedVariable? with
    | some bound => c.program.variableUse bound ++ text "."
    | none => resource.asTarget rendered) ++
  text "Dispose();" ++ lineBreak

/-- Whether a case compares the subject of the switch with a value. -/
def comparesSubject (c : Context) (subject left operator : Value) : Bool :=
  (operator.isText "identity_equality" || operator.isText "value_equality") &&
    c.program.same left subject

mutual

/-- What a slot for an expression holds. -/
def exprSlot (c : Context) : Value → Script
  | .scalar .null => fail .missingExpression
  | .expr e => delayed fun _ => c.expr e
  | v => fail (.unsupported .expression (v.found c.program))
termination_by structural v => v

/-- The expressions of a list. -/
def exprItems (c : Context) : Value → List Script
  | .list items => c.exprSlots items
  | v => v.strays fun item => fail (.unsupported .expression (item.found c.program))
termination_by structural v => v

def exprSlots (c : Context) : List Value → List Script
  | [] => []
  | first :: rest => c.exprSlot first :: c.exprSlots rest
termination_by structural vs => vs

/-- The property that a slot refers to without indices, if it refers to one. -/
def property? (c : Context) : Value → Option Access
  | .expr (.property property target) =>
    some ⟨property, target.asTarget (c.exprSlot target), []⟩
  | _ => none
termination_by structural v => v

/-- The property that a slot refers to, if it refers to one. -/
def access? (c : Context) : Value → Option Access
  | .expr (.property property target) =>
    some ⟨property, target.asTarget (c.exprSlot target), []⟩
  | .expr (.propertyIndexer target indices) =>
    (c.property? target).map fun access => { access with arguments := c.exprItems indices }
  | _ => none
termination_by structural v => v

/-- The scripts of what an initializer lists. -/
def items? (c : Context) : Value → Option (List Script)
  | .expr (.block items) => some (c.exprItems items)
  | .clause (.order items) => some (c.exprItems items)
  | _ => none
termination_by structural v => v

/-- What an address expression takes the address of. -/
def pointee? (c : Context) : Value → Option Script
  | .expr (.addressOf operand) => some (c.exprSlot operand)
  | _ => none
termination_by structural v => v

/-- Assigning to `target` a sum or difference of which it is the left operand. `whole` is the
script of the target. -/
def counter? (c : Context) (target : Value) (whole : Script) : Value → Option Script
  | .expr (.binary left operator right) =>
    (c.counterCall? target left operator).map fun call =>
      text call ++ whole ++ text ", " ++ c.exprSlot right ++ text ")"
  | _ => none
termination_by structural v => v

def expr (c : Context) : Expr → Script
  | .bare => fail (.unsupported .expression (.kind "Expr"))
  | .literal value kind => given (Literal.text c.program c.style.numberFormat value kind) text
  | .assign target value =>
    (c.counter? target (c.exprSlot target) value).getD
      (c.assignment (c.access? target) (c.exprSlot target) (c.exprSlot value))
  | .typeOf type => between "typeof(" ")" (c.program.typeSlot type)
  | .fieldOf field type =>
    between "fieldof(" ")" (c.program.memberOf field ++ c.program.fieldName field ++
      type.optionally (text ", " ++ c.program.typeSlot type))
  | .methodOf method type =>
    between "methodof(" ")" (c.program.memberOf method ++ c.program.methodName method ++
      type.optionally (text ", " ++ c.program.typeSlot type))
  | .initMember member value => c.program.memberName member ++ text "=" ++ c.exprSlot value
  | .typeName type => c.program.typeName type
  | .field field target => target.asTarget (c.exprSlot target) ++ c.program.fieldName field
  | .event event target => target.asTarget (c.exprSlot target) ++ c.program.eventName event
  | .method method target => target.asTarget (c.exprSlot target) ++ c.program.methodName method
  | .property property target => c.read ⟨property, target.asTarget (c.exprSlot target), []⟩
  | .argumentList => text "arguments"
  | .stackAllocate type size =>
    text "stackalloc " ++ c.program.typeSlot type ++ bracketed (c.exprSlot size)
  | .block items => Script.block (c.exprItems items)
  | .arrayCreate _ dimensions initializer =>
    newArray initializer dimensions.areZero (c.items? initializer) (c.exprItems dimensions)
  | .base => text "this"
  | .this => text "this"
  | .unary operator operand => Script.unary operator (c.exprSlot operand)
  | .binary left operator right => Script.binary operator (c.exprSlot left) (c.exprSlot right)
  | .tryCast operand type =>
    parenthesized (c.exprSlot operand ++ text " as " ++ c.program.typeSlot type)
  | .canCast operand type =>
    parenthesized (c.exprSlot operand ++ text " is " ++ c.program.typeSlot type)
  | .cast operand _ => c.exprSlot operand
  | .condition condition yes no =>
    parenthesized (c.exprSlot condition ++ text " ? " ++ c.exprSlot yes ++ text " : " ++
      c.exprSlot no)
  | .coalesce subject fallback =>
    text "((" ++ c.exprSlot subject ++ text " !== null) ? " ++ c.exprSlot subject ++ text " : " ++
      c.exprSlot fallback ++ text ")"
  | .delegateCreate type method target =>
    c.program.typeSlot type ++ between ".Create(" ")"
      (target.optionally (c.exprSlot target ++ text ", ") ++ c.program.methodName method)
  | .function parameters body _ =>
    text "function(" ++ c.program.parameterList parameters ++ text ") \x7b" ++ lineBreak ++
      indented (c.functionBody body (body.optionally (c.stmtSlot body))) ++ text "\x7d"
  | .lambda parameters body =>
    text "function(" ++ given parameters.items (fun parameters =>
      commaSeparated (parameters.map c.program.variableDeclaration)) ++
      text ") \x7b return " ++ c.exprSlot body ++ text "; \x7d"
  | .argument parameter => c.program.argumentUse parameter
  | .declare bound => c.program.variableUse bound
  | .variable bound => c.program.variableUse bound
  | .propertyIndexer target indices =>
    ((c.property? target).map fun access =>
      c.read { access with arguments := c.exprItems indices }).getD (fail .indexerTarget)
  | .arrayIndexer target indices =>
    c.exprSlot target ++ concat ((c.exprItems indices).map bracketed)
  | .invoke method arguments =>
    method.asCallee (c.exprSlot method) ++ parenthesized (commaSeparated (c.exprItems arguments))
  | .delegateInvoke target arguments =>
    c.exprSlot target ++ parenthesized (commaSeparated (c.exprItems arguments))
  | .objectCreate type constructor arguments initializer =>
    text "(new " ++ c.program.createdType constructor type ++
      between "()).ctor(" ")" (commaSeparated (c.exprItems arguments)) ++
      newMembers initializer (c.items? initializer)
  | .addressOf operand => bracketed (c.exprSlot operand)
  | .addressReference operand => bracketed (c.exprSlot operand)
  | .addressOut operand => bracketed (c.exprSlot operand)
  | .dereference operand => (c.pointee? operand).getD (c.exprSlot operand)
  | .sizeOf type => between "sizeof(" ")" (c.program.typeSlot type)
  | .typeOfTyped operand => between "__reftype(" ")" (c.exprSlot operand)
  | .valueOfTyped operand type =>
    between "__refvalue(" ")" (c.exprSlot operand ++
      type.optionally (text ", " ++ c.program.typeSlot type))
  | .createTyped operand => between "__makeref(" ")" (c.exprSlot operand)
  | .genericDefault type => between "default(" ")" (c.program.typeSlot type)
  | .snippet code => content code
  | .query source body =>
    parenthesized (c.querySource source ++ indented (c.queryBody body))
termination_by structural e => e

/-- The source that a query opens with. Whatever binds a variable to a source will do. -/
def querySource (c : Context) : Value → Script
  | .clause (.from bound source) | .clause (.let bound source)
  | .stmt (.forEach bound source _) | .stmt (.fixed bound source _) =>
    text "from " ++ c.program.variableDeclaration bound ++ text " in " ++ c.exprSlot source
  | _ => text "from " ++ fail .malformed
termination_by structural v => v

def queryClause (c : Context) : Value → Script
  | .clause (.from bound source) =>
    text "from " ++ c.program.variableDeclaration bound ++ text " in " ++ c.exprSlot source
  | .clause (.where condition) => text "where " ++ c.exprSlot condition
  | .clause (.let bound value) =>
    text "let " ++ c.program.variableDeclaration bound ++ text " = " ++ c.exprSlot value
  | .clause (.join bound source on equality into) =>
    text "join " ++ c.program.variableDeclaration bound ++ text " in " ++ c.exprSlot source ++
      text " on " ++ c.exprSlot on ++ text " equals " ++ c.exprSlot equality ++
      into.optionally (text " into " ++ c.program.variableDeclaration into)
  | .clause (.order orderings) => text "orderby " ++ commaSeparated (c.orderingItems orderings)
  | v => fail (.unsupported .queryClause (v.found c.program))
termination_by structural v => v

def queryClauseItems (c : Context) : Value → List Script
  | .list items => c.queryClauses items
  | v => v.strays fun item =>
    lineBreak ++ fail (.unsupported .queryClause (item.found c.program))
termination_by structural v => v

def queryClauses (c : Context) : List Value → List Script
  | [] => []
  | first :: rest => (lineBreak ++ c.queryClause first) :: c.queryClauses rest
termination_by structural vs => vs

def ordering (c : Context) : Value → Script
  | .clause (.ordering key direction) =>
    c.exprSlot key ++ (if direction.isText "descending" then text " descending" else ∅)
  | _ => fail .malformed
termination_by structural v => v

def orderingItems (c : Context) : Value → List Script
  | .list items => c.orderings items
  | v => v.strays fun _ => fail .malformed
termination_by structural v => v

def orderings (c : Context) : List Value → List Script
  | [] => []
  | first :: rest => c.ordering first :: c.orderings rest
termination_by structural vs => vs

/-- What a query makes of each element. -/
def queryOperation (c : Context) : Value → Script
  | .clause (.select value) => text "select " ++ c.exprSlot value
  | .clause (.group item key) =>
    text "group " ++ c.exprSlot item ++ text " by " ++ c.exprSlot key
  | v => fail (.unsupported .queryOperation (v.found c.program))
termination_by structural v => v

/-- A query after its source. A continuation goes on with a body of its own. -/
def queryBody (c : Context) : Value → Script
  | .clause (.queryBody operation clauses continuation) =>
    concat (c.queryClauseItems clauses) ++ lineBreak ++ c.queryOperation operation ++
      c.queryContinuation continuation
  | _ => fail .malformed
termination_by structural v => v

/-- What a query goes on with. Whatever binds a variable over a body of a query will do. -/
def queryContinuation (c : Context) : Value → Script
  | .scalar .null => ∅
  | .clause (.continuation bound body) | .clause (.catch body bound _)
  | .stmt (.forEach bound _ body) | .stmt (.fixed bound _ body) =>
    text " into " ++ c.program.variableDeclaration bound ++ c.queryBody body
  | _ => text " into " ++ fail .malformed
termination_by structural v => v

/-- What a slot for a statement holds. -/
def stmtSlot (c : Context) : Value → Script
  | .scalar .null => fail .missingStatement
  | .stmt s => delayed fun _ => c.stmt s
  | v => fail (.unsupported .statement (v.found c.program))
termination_by structural v => v

/-- The statements of a list. -/
def stmtItems (c : Context) : Value → List Script
  | .list items => c.stmtSlots items
  | v => v.strays fun item => fail (.unsupported .statement (item.found c.program))
termination_by structural v => v

def stmtSlots (c : Context) : List Value → List Script
  | [] => []
  | first :: rest => c.stmtSlot first :: c.stmtSlots rest
termination_by structural vs => vs

def stmt (c : Context) : Stmt → Script
  | .bare => fail (.unsupported .statement (.kind "Stmt"))
  | .block statements => concat (c.stmtItems statements)
  | .expression expression =>
    if expression.isDeclaration then ∅ else simple (c.exprSlot expression)
  | .goto _ label => simple (text "goto " ++ declaration label none)
  | .labeled _ label statement =>
    step .separator ++ given label.asName (fun name => step (.label name)) ++
      statement.optionally (c.stmtSlot statement)
  | .condition condition yes no =>
    step .separator ++ text "if " ++ condition.asCondition (c.exprSlot condition) ++
      braced (yes.optionally (c.stmtSlot yes)) ++
      no.optionally (no.unlessEmpty (lineBreak ++ text "else" ++ braced (c.stmtSlot no)))
  | .return value =>
    simple (text "return" ++ value.optionally (text " " ++ c.exprSlot value))
  | .for start condition increment body =>
    step .separator ++ text "for (" ++ step (.header true) ++
      step .openBody ++ start.optionally (c.stmtSlot start) ++ text "; " ++
      condition.optionally (c.exprSlot condition) ++ text "; " ++
      step .openBody ++ increment.optionally (c.stmtSlot increment) ++
      step (.header false) ++ text ")" ++ braced (body.optionally (c.stmtSlot body))
  | .forEach bound source body =>
    step .separator ++ text "for (" ++ c.program.variableUse bound ++ text " of " ++
      c.exprSlot source ++ text ")" ++ braced (body.optionally (c.stmtSlot body))
  | .using resource body =>
    acquire resource (c.exprSlot resource) ++ step .separator ++ text "try" ++
      braced (body.optionally (c.stmtSlot body)) ++ lineBreak ++ text "finally \x7b" ++ lineBreak ++
      indented (c.release resource (c.exprSlot resource)) ++ text "\x7d" ++ step (.terminate false)
  | .fixed bound source body =>
    step .separator ++ text "fixed (" ++ c.program.variableUse bound ++ text " = " ++
      c.exprSlot source ++ text ")" ++ braced (body.optionally (c.stmtSlot body))
  | .while condition body =>
    step .separator ++ text "while " ++ condition.asCondition (c.exprSlot condition) ++
      braced (body.optionally (c.stmtSlot body))
  | .do condition body =>
    simple (text "do" ++ braced (body.optionally (c.stmtSlot body)) ++ text " while " ++
      condition.asCondition (c.exprSlot condition))
  | .try body catches fault last =>
    step .separator ++ text "try" ++ braced (body.optionally (c.stmtSlot body)) ++
      concat (c.catchItems catches) ++
      fault.unlessEmpty (lineBreak ++ text "catch (e)" ++ braced (c.stmtSlot fault ++ rethrow)) ++
      last.unlessEmpty (lineBreak ++ text "finally" ++ braced (c.stmtSlot last)) ++
      step (.terminate false)
  | .throw value =>
    simple (text "throw " ++
      (if value.isNull then text "Exception.Create()" else c.exprSlot value))
  | .attach event listener => simple (c.exprSlot event ++ text " += " ++ c.exprSlot listener)
  | .detach event listener => simple (c.exprSlot event ++ text " -= " ++ c.exprSlot listener)
  | .switch subject cases =>
    step .separator ++ text "switch " ++ subject.asCondition (c.exprSlot subject) ++
      text " \x7b" ++ lineBreak ++ concat (c.switchItems subject cases) ++ text "\x7d" ++
      step (.terminate false)
  | .break => simple (text "break")
  | .continue => simple (text "continue")
  | .memoryCopy source destination length =>
    simple (between "memcpy(" ")"
      (commaSeparated [c.exprSlot source, c.exprSlot destination, c.exprSlot length]))
  | .memoryFill offset value length =>
    simple (between "meminit(" ")"
      (commaSeparated [c.exprSlot offset, c.exprSlot value, c.exprSlot length]))
  | .debugBreak => simple (text "debugger")
  | .lock subject body =>
    step .separator ++ text "lock " ++ subject.asCondition (c.exprSlot subject) ++
      braced (body.optionally (c.stmtSlot body))
  | .comment content =>
    step .separator ++ given (commentLines content) Script.comment ++ step (.terminate false)
termination_by structural s => s

def catchClause (c : Context) : Value → Script
  | .clause (.catch body bound condition) =>
    c.catchHead bound ++
      (if condition.isNull then braced (body.optionally (c.stmtSlot body))
        else text " \x7b" ++ lineBreak ++
          indented (text "if " ++ condition.asCondition (c.exprSlot condition) ++
            braced (body.optionally (c.stmtSlot body)) ++ lineBreak) ++
          text "\x7d")
  | _ => lineBreak ++ text "catch (" ++ fail .malformed
termination_by structural v => v

def catchItems (c : Context) : Value → List Script
  | .list items => c.catchClauses items
  | v => v.strays fun _ => lineBreak ++ text "catch (" ++ fail .malformed
termination_by structural v => v

def catchClauses (c : Context) : List Value → List Script
  | [] => []
  | first :: rest => c.catchClause first :: c.catchClauses rest
termination_by structural vs => vs

/-- The labels of a case: one for each alternative of its condition. `whole` is the script of the
condition as it stands. -/
def caseLabels (c : Context) (subject : Value) (whole : Script) : Value → Script
  | .expr (.binary left operator right) =>
    if operator.isText "boolean_or" then
      c.caseLabels subject (c.exprSlot left) left ++ c.caseLabels subject (c.exprSlot right) right
    else if c.comparesSubject subject left operator then caseLabel (c.exprSlot right)
    else caseLabel whole
  | _ => caseLabel whole
termination_by structural v => v

def switchCase (c : Context) (subject : Value) : Value → Script
  | .clause (.case body condition) =>
    c.caseLabels subject (c.exprSlot condition) condition ++
      indented (Script.body (body.optionally (c.stmtSlot body)))
  | .clause (.default body) =>
    text "default:" ++ lineBreak ++ indented (Script.body (body.optionally (c.stmtSlot body)))
  | v => fail (.unsupported .switchCase (v.found c.program))
termination_by structural v => v

def switchItems (c : Context) (subject : Value) : Value → List Script
  | .list items => c.switchCases subject items
  | v => v.strays fun item => fail (.unsupported .switchCase (item.found c.program))
termination_by structural v => v

def switchCases (c : Context) (subject : Value) : List Value → List Script
  | [] => []
  | first :: rest => c.switchCase subject first :: c.switchCases subject rest
termination_by structural vs => vs

end

variable (c : Context)

theorem exprSlots_eq (vs : List Value) : c.exprSlots vs = vs.map c.exprSlot := by
  induction vs with
  | nil => rfl
  | cons v vs ih => rw [exprSlots, ih, List.map_cons]

theorem stmtSlots_eq (vs : List Value) : c.stmtSlots vs = vs.map c.stmtSlot := by
  induction vs with
  | nil => rfl
  | cons v vs ih => rw [stmtSlots, ih, List.map_cons]

theorem catchClauses_eq (vs : List Value) : c.catchClauses vs = vs.map c.catchClause := by
  induction vs with
  | nil => rfl
  | cons v vs ih => rw [catchClauses, ih, List.map_cons]

theorem switchCases_eq (subject : Value) (vs : List Value) :
    c.switchCases subject vs = vs.map (c.switchCase subject) := by
  induction vs with
  | nil => rfl
  | cons v vs ih => rw [switchCases, ih, List.map_cons]

theorem queryClauses_eq (vs : List Value) :
    c.queryClauses vs = vs.map fun v => lineBreak ++ c.queryClause v := by
  induction vs with
  | nil => rfl
  | cons v vs ih => rw [queryClauses, ih, List.map_cons]

theorem orderings_eq (vs : List Value) : c.orderings vs = vs.map c.ordering := by
  induction vs with
  | nil => rfl
  | cons v vs ih => rw [orderings, ih, List.map_cons]

end Context

end Scribe
