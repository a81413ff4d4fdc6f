import Scribe.Program

/-!
# Kinds of values

The word by which a message names the kind of a value that is out of place.
-/

namespace Scribe

/-- What was found in a slot. A text speaks for itself. -/
inductive Found
  | text (value : String)
  | kind (name : String)
deriving DecidableEq, Repr

namespace Found

/-- The word of a message. -/
def word : Found → String
  | .text value => value
  | .kind name => name

/-- The word of a log entry, where a text is named by its kind too. -/
def kindName : Found → String
  | .text _ => "str"
  | .kind name => name

end Found

namespace Scalar

def found : Scalar → Found
  | .null => .kind "NoneType"
  | .bool _ => .kind "bool"
  | .int _ => .kind "int"
  | .real .. => .kind "float"
  | .decimal .. => .kind "Decimal"
  | .text value => .text value
  | .bytes _ => .kind "bytes"

end Scalar

namespace TypeTree

def kindName : TypeTree → String
  | .bare => "Type"
  | .array .. => "ArrayType"
  | .pointer .. => "PointerType"
  | .reference .. => "ReferenceType"
  | .required .. => "RequiredModifier"
  | .optional .. => "OptionalModifier"
  | .functionPointer .. => "FunctionPointer"
  | .genericArgument .. => "GenericArgument"

end TypeTree

namespace Expr

def kindName : Expr → String
  | .bare => "Expr"
  | .literal .. => "LiteralExpression"
  | .assign .. => "AssignExpression"
  | .typeOf .. => "TypeOfExpression"
  | .fieldOf .. => "FieldOfExpression"
  | .methodOf .. => "MethodOfExpression"
  | .initMember .. => "MemberInitializerExpression"
  | .typeName .. => "TypeReferenceExpression"
  | .field .. => "FieldReferenceExpression"
  | .event .. => "EventReferenceExpression"
  | .method .. => "MethodReferenceExpression"
  | .property .. => "PropertyReferenceExpression"
  | .argumentList => "ArgumentListExpression"
  | .stackAllocate .. => "StackAllocateExpression"
  | .block .. => "BlockExpression"
  | .arrayCreate .. => "ArrayCreateExpression"
  | .base => "BaseReferenceExpression"
  | .this => "ThisReferenceExpression"
  | .unary .. => "UnaryExpression"
  | .binary .. => "BinaryExpression"
  | .tryCast .. => "TryCastExpression"
  | .canCast .. => "CanCastExpression"
  | .cast .. => "CastExpression"
  | .condition .. => "ConditionExpression"
  | .coalesce .. => "NullCoalescingExpression"
  | .delegateCreate .. => "DelegateCreateExpression"
  | .function .. => "AnonymousMethodExpression"
  | .lambda .. => "LambdaExpression"
  | .argument .. => "ArgumentReferenceExpression"
  | .declare .. => "VariableDeclarationExpression"
  | .variable .. => "VariableReferenceExpression"
  | .propertyIndexer .. => "PropertyIndexerExpression"
  | .arrayIndexer .. => "ArrayIndexerExpression"
  | .invoke .. => "MethodInvokeExpression"
  | .delegateInvoke .. => "DelegateInvokeExpression"
  | .objectCreate .. => "ObjectCreateExpression"
  | .addressOf .. => "AddressOfExpression"
  | .addressReference .. => "AddressReferenceExpression"
  | .addressOut .. => "AddressOutExpression"
  | .dereference .. => "AddressDereferenceExpression"
  | .sizeOf .. => "SizeOfExpression"
  | .typeOfTyped .. => "TypeOfTypedReferenceExpression"
  | .valueOfTyped .. => "ValueOfTypedReferenceExpression"
  | .createTyped .. => "TypedReferenceCreateExpression"
  | .genericDefault .. => "GenericDefaultExpression"
  | .snippet .. => "SnippetExpression"
  | .query .. => "QueryExpression"

end Expr

namespace Stmt

def kindName : Stmt → String
  | .bare => "Stmt"
  | .block .. => "BlockStatement"
  | .expression .. => "ExpressionStatement"
  | .goto .. => "GotoStatement"
  | .labeled .. => "LabeledStatement"
  | .condition .. => "ConditionStatement"
  | .return .. => "MethodReturnStatement"
  | .for .. => "ForStatement"
  | .forEach .. => "ForEachStatement"
  | .using .. => "UsingStatement"
  | .fixed .. => "FixedStatement"
  | .while .. => "WhileStatement"
  | .do .. => "DoStatement"
  | .try .. => "TryCatchFinallyStatement"
  | .throw .. => "ThrowExceptionStatement"
  | .attach .. => "AttachEventStatement"
  | .detach .. => "RemoveEventStatement"
  | .switch .. => "SwitchStatement"
  | .break => "BreakStatement"
  | .continue => "ContinueStatement"
  | .memoryCopy .. => "MemoryCopyStatement"
  | .memoryFill .. => "MemoryInitializeStatement"
  | .debugBreak => "DebugBreakStatement"
  | .lock .. => "LockStatement"
  | .comment .. => "CommentStatement"

end Stmt

namespace Clause

def kindName : Clause → String
  | .bare => "Node"
  | .bareClause => "QueryClause"
  | .bareOperation => "QueryOperation"
  | .from .. => "FromClause"
  | .where .. => "WhereClause"
  | .let .. => "LetClause"
  | .join .. => "JoinClause"
  | .ordering .. => "OrderExpression"
  | .order .. => "OrderClause"
  | .select .. => "SelectOperation"
  | .group .. => "GroupOperation"
  | .continuation .. => "QueryContinuation"
  | .queryBody .. => "QueryBody"
  | .catch .. => "CatchClause"
  | .bareCase .. => "SwitchCase"
  | .case .. => "ConditionCase"
  | .default .. => "DefaultCase"

end Clause

namespace Program

/-- Whether the entity has the details of a declaration. -/
def isDeclared (p : Program) : Entity → Bool
  | ⟨.type, i⟩ => (p.type ⟨i⟩).declared.isSome
  | ⟨.field, i⟩ => (p.field ⟨i⟩).declared.isSome
  | ⟨.method, i⟩ => (p.method ⟨i⟩).declared.isSome
  | ⟨.property, i⟩ => (p.property ⟨i⟩).declared.isSome
  | ⟨.event, i⟩ => (p.event ⟨i⟩).declared.isSome
  | ⟨.assembly, i⟩ => (p.assembly ⟨i⟩).declared.isSome
  | ⟨.module, i⟩ => (p.module ⟨i⟩).declared.isSome
  | _ => true

/-- The name of an entity's kind. -/
def kindName (p : Program) (e : Entity) : String :=
  match e.kind, p.isDeclared e with
  | .type, declared => if declared then "TypeDeclaration" else "TypeReference"
  | .field, declared => if declared then "FieldDeclaration" else "FieldReference"
  | .method, declared => if declared then "MethodDeclaration" else "MethodReference"
  | .property, declared => if declared then "PropertyDeclaration" else "PropertyReference"
  | .event, declared => if declared then "EventDeclaration" else "EventReference"
  | .assembly, declared => if declared then "Assembly" else "AssemblyReference"
  | .module, declared => if declared then "Module" else "ModuleReference"
  | .genericParameter, _ => "GenericParameter"
  | .parameter, _ => "ParameterDeclaration"
  | .variable, _ => "VariableDeclaration"
  | .nameSpace, _ => "Namespace"
  | .resource, _ => "Resource"

end Program

namespace Value

def found (p : Program) : Value → Found
  | .scalar value => value.found
  | .list _ => .kind "list"
  | .entity value => .kind (p.kindName value)
  | .bounds .. => .kind "ArrayDimension"
  | .attribute .. => .kind "CustomAttribute"
  | .type tree => .kind tree.kindName
  | .expr tree => .kind tree.kindName
  | .stmt tree => .kind tree.kindName
  | .clause tree => .kind tree.kindName

end Value

end Scribe
