import Scribe.Fault
import Scribe.Program.Parts

/-!
# Local variables of a body

The variables that a function body has to declare up front: those declared anywhere in it, in the
order in which they are met. Functions, lambdas and queries open scopes of their own and are not
entered, a use of a variable declares nothing, and a catch clause binds its own variable.
-/

namespace Scribe

/-- Whether an expression declares its variables for itself. -/
def Expr.opensScope : Expr → Bool
  | .function .. | .lambda .. | .query .. => true
  | _ => false

mutual

/-- The variables declared in what a slot holds. -/
def Value.locals : Value → List VariableId
  | .entity ⟨.variable, i⟩ => [⟨i⟩]
  | .list items => Value.localsOfAll items
  | .expr e => if e.opensScope then [] else e.locals
  | .stmt s => s.locals
  | .clause c => c.locals
  | _ => []

def Value.localsOfAll : List Value → List VariableId
  | [] => []
  | first :: rest => first.locals ++ Value.localsOfAll rest

/-- The variables declared in an expression, its own scope included. -/
def Expr.locals : Expr → List VariableId
  | .bare => []
  | .literal value kind => value.locals ++ kind.locals
  | .assign target value => target.locals ++ value.locals
  | .typeOf type => type.locals
  | .fieldOf field type => field.locals ++ type.locals
  | .methodOf method type => method.locals ++ type.locals
  | .initMember member value => member.locals ++ value.locals
  | .typeName type => type.locals
  | .field field target => field.locals ++ target.locals
  | .event event target => event.locals ++ target.locals
  | .method method target => method.locals ++ target.locals
  | .property property target => property.locals ++ target.locals
  | .argumentList => []
  | .stackAllocate type size => type.locals ++ size.locals
  | .block items => items.locals
  | .arrayCreate type dimensions initializer =>
    type.locals ++ dimensions.locals ++ initializer.locals
  | .base => []
  | .this => []
  | .unary operator operand => operator.locals ++ operand.locals
  | .binary left operator right => left.locals ++ operator.locals ++ right.locals
  | .tryCast operand type => operand.locals ++ type.locals
  | .canCast operand type => operand.locals ++ type.locals
  | .cast operand type => operand.locals ++ type.locals
  | .condition condition yes no => condition.locals ++ yes.locals ++ no.locals
  | .coalesce subject fallback => subject.locals ++ fallback.locals
  | .delegateCreate type method target => type.locals ++ method.locals ++ target.locals
  | .function parameters body type => parameters.locals ++ body.locals ++ type.locals
  | .lambda parameters body => parameters.locals ++ body.locals
  | .argument parameter => parameter.locals
  | .declare bound => bound.locals
  | .variable _ => []
  | .propertyIndexer target indices => target.locals ++ indices.locals
  | .arrayIndexer target indices => target.locals ++ indices.locals
  | .invoke method arguments => method.locals ++ arguments.locals
  | .delegateInvoke target arguments => target.locals ++ arguments.locals
  | .objectCreate type constructor arguments initializer =>
    type.locals ++ constructor.locals ++ arguments.locals ++ initializer.locals
  | .addressOf operand => operand.locals
  | .addressReference operand => operand.locals
  | .addressOut operand => operand.locals
  | .dereference operand => operand.locals
  | .sizeOf type => type.locals
  | .typeOfTyped operand => operand.locals
  | .valueOfTyped operand type => operand.locals ++ type.locals
  | .createTyped operand => operand.locals
  | .genericDefault type => type.locals
  | .snippet text => text.locals
  | .query source body => source.locals ++ body.locals

def Stmt.locals : Stmt → List VariableId
  | .bare => []
  | .block statements => statements.locals
  | .expression expression => expression.locals
  | .goto _ label => label.locals
  | .labeled _ label statement => label.locals ++ statement.locals
  | .condition condition yes no => condition.locals ++ yes.locals ++ no.locals
  | .return value => value.locals
  | .for start condition increment body =>
    start.locals ++ condition.locals ++ increment.locals ++ body.locals
  | .forEach bound source body => bound.locals ++ source.locals ++ body.locals
  | .using resource body => resource.locals ++ body.locals
  | .fixed bound source body => bound.locals ++ source.locals ++ body.locals
  | .while condition body => condition.locals ++ body.locals
  | .do condition body => condition.locals ++ body.locals
  | .try body catches fault last => body.locals ++ catches.locals ++ fault.locals ++ last.locals
  | .throw value => value.locals
  | .attach event listener => event.locals ++ listener.locals
  | .detach event listener => event.locals ++ listener.locals
  | .switch subject cases => subject.locals ++ cases.locals
  | .break => []
  | .continue => []
  | .memoryCopy source destination length => source.locals ++ destination.locals ++ length.locals
  | .memoryFill offset value length => offset.locals ++ value.locals ++ length.locals
  | .debugBreak => []
  | .lock subject body => subject.locals ++ body.locals
  | .comment text => text.locals

def Clause.locals : Clause → List VariableId
  | .bare => []
  | .bareClause => []
  | .bareOperation => []
  | .from bound source => bound.locals ++ source.locals
  | .where condition => condition.locals
  | .let bound value => bound.locals ++ value.locals
  | .join bound source on equality into =>
    bound.locals ++ source.locals ++ on.locals ++ equality.locals ++ into.locals
  | .ordering key direction => key.locals ++ direction.locals
  | .order orderings => orderings.locals
  | .select value => value.locals
  | .group item key => item.locals ++ key.locals
  | .continuation bound body => bound.locals ++ body.locals
  | .queryBody operation clauses continuation =>
    operation.locals ++ clauses.locals ++ continuation.locals
  | .catch body _ condition => body.locals ++ condition.locals
  | .bareCase body => body.locals
  | .case body condition => body.locals ++ condition.locals
  | .default body => body.locals

end

/-- The variables declared in the slots of a type. -/
def TypeTree.locals : TypeTree → List VariableId
  | .bare => []
  | .array element dimensions => element.locals ++ dimensions.locals
  | .pointer element => element.locals
  | .reference element => element.locals
  | .required element modifier => element.locals ++ modifier.locals
  | .optional element modifier => element.locals ++ modifier.locals
  | .functionPointer result parameters => result.locals ++ parameters.locals
  | .genericArgument position target => position.locals ++ target.locals

namespace Program

/-- The variables declared inside a node, which is entered even if it opens a scope. -/
def localsInside (p : Program) : Value → Except Fault (List VariableId)
  | .scalar .null => .ok []
  | .scalar _ | .list _ => .error .illTyped
  | .entity e => .ok (Value.localsOfAll ((p.parts e).map (·.value)))
  | .bounds .. => .ok []
  | .attribute constructor arguments => .ok (constructor.locals ++ arguments.locals)
  | .type t => .ok t.locals
  | .expr e => .ok e.locals
  | .stmt s => .ok s.locals
  | .clause c => .ok c.locals

/-- The variables that a body declares up front, each once, in the order in which they are met. A
missing body declares none. -/
def hoisted (p : Program) (body : Value) : Except Fault (List VariableId) :=
  (p.localsInside body).map (·.eraseDups)

end Program

end Scribe
