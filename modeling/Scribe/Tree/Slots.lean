import Scribe.Tree

/-!
# Slots of a tree

The slots of a tree, in the order of its fields. Entities are referred to and hold no slots of the
tree.
-/

namespace Scribe

def TypeTree.slots : TypeTree → List Value
  | .bare => []
  | .array element dimensions => [element, dimensions]
  | .pointer element | .reference element => [element]
  | .required element modifier | .optional element modifier => [element, modifier]
  | .functionPointer result parameters => [result, parameters]
  | .genericArgument position target => [position, target]

def Expr.slots : Expr → List Value
  | .bare | .argumentList | .base | .this => []
  | .literal value kind => [value, kind]
  | .assign target value => [target, value]
  | .typeOf type | .typeName type | .sizeOf type | .genericDefault type => [type]
  | .fieldOf member type | .methodOf member type => [member, type]
  | .initMember member value => [member, value]
  | .field member target | .event member target | .method member target
  | .property member target => [member, target]
  | .stackAllocate type size => [type, size]
  | .block items => [items]
  | .arrayCreate type dimensions initializer => [type, dimensions, initializer]
  | .unary operator operand => [operator, operand]
  | .binary left operator right => [left, operator, right]
  | .tryCast operand type | .canCast operand type | .cast operand type
  | .valueOfTyped operand type => [operand, type]
  | .condition test yes no => [test, yes, no]
  | .coalesce subject fallback => [subject, fallback]
  | .delegateCreate type member target => [type, member, target]
  | .function parameters body type => [parameters, body, type]
  | .lambda parameters body => [parameters, body]
  | .argument bound | .declare bound | .variable bound => [bound]
  | .propertyIndexer target indices | .arrayIndexer target indices => [target, indices]
  | .invoke target arguments | .delegateInvoke target arguments => [target, arguments]
  | .objectCreate type constructor arguments initializer =>
    [type, constructor, arguments, initializer]
  | .addressOf operand | .addressReference operand | .addressOut operand | .dereference operand
  | .typeOfTyped operand | .createTyped operand => [operand]
  | .snippet text => [text]
  | .query source body => [source, body]

def Stmt.slots : Stmt → List Value
  | .bare | .break | .continue | .debugBreak => []
  | .block statements => [statements]
  | .expression value | .return value | .throw value | .comment value => [value]
  | .goto _ label => [label]
  | .labeled _ label statement => [label, statement]
  | .condition test yes no => [test, yes, no]
  | .for start test increment body => [start, test, increment, body]
  | .forEach bound source body | .fixed bound source body => [bound, source, body]
  | .using resource body => [resource, body]
  | .while test body | .do test body => [test, body]
  | .try body catches fault last => [body, catches, fault, last]
  | .attach event listener | .detach event listener => [event, listener]
  | .switch subject cases => [subject, cases]
  | .memoryCopy source destination length => [source, destination, length]
  | .memoryFill offset value length => [offset, value, length]
  | .lock subject body => [subject, body]

def Clause.slots : Clause → List Value
  | .bare | .bareClause | .bareOperation => []
  | .from bound source | .let bound source => [bound, source]
  | .where test => [test]
  | .join bound source on equality into => [bound, source, on, equality, into]
  | .ordering key direction => [key, direction]
  | .order orderings => [orderings]
  | .select value => [value]
  | .group item key => [item, key]
  | .continuation bound body => [bound, body]
  | .queryBody operation clauses rest => [operation, clauses, rest]
  | .catch body bound test => [body, bound, test]
  | .bareCase body | .default body => [body]
  | .case body test => [body, test]

namespace Value

def slots : Value → List Value
  | .scalar _ | .entity _ | .bounds .. => []
  | .list items => items
  | .attribute constructor arguments => [constructor, arguments]
  | .type tree => tree.slots
  | .expr tree => tree.slots
  | .stmt tree => tree.slots
  | .clause tree => tree.slots

end Value

end Scribe
