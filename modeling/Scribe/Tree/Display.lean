import Scribe.Fault
import Scribe.Program.Parts
import Scribe.Scalar.Display
import Scribe.Tree.Slots

/-!
# Values in messages

The plain and the exact text of what a slot holds. They differ for scalars only: a list shows its
items exactly, and a node shows its kind and its fields, each by its name. An entity that stands
inside itself is shown as three dots there, so the text ends however the links lead. Where a text is
to show an integer of too many digits, there is none.
-/

namespace Scribe

/-- A text of the scalar in one of its forms, where it can be shown. -/
def Scalar.told (s : Scalar) (form : Scalar → String) : Except Fault String :=
  if s.isShowable then .ok (form s) else .error .tooManyDigits

/-! ### Names of slots, in the order of `slots` -/

def TypeTree.slotNames : TypeTree → List String
  | .bare => []
  | .array .. => ["element_type", "dimensions"]
  | .pointer _ | .reference _ => ["element_type"]
  | .required .. | .optional .. => ["element_type", "modifier"]
  | .functionPointer .. => ["return_type", "parameter_types"]
  | .genericArgument .. => ["position", "target"]

def Expr.slotNames : Expr → List String
  | .bare | .argumentList | .base | .this => []
  | .literal .. => ["value", "kind"]
  | .assign .. => ["target", "expression"]
  | .typeOf _ | .typeName _ | .sizeOf _ => ["type"]
  | .genericDefault _ => ["generic_argument"]
  | .fieldOf .. => ["field", "type"]
  | .methodOf .. => ["method", "type"]
  | .initMember .. => ["member", "value"]
  | .field .. => ["field", "target"]
  | .event .. => ["event", "target"]
  | .method .. => ["method", "target"]
  | .property .. => ["property", "target"]
  | .stackAllocate .. => ["type", "expression"]
  | .block _ => ["expressions"]
  | .arrayCreate .. => ["type", "dimensions", "initializer"]
  | .unary .. => ["operator", "expression"]
  | .binary .. => ["left", "operator", "right"]
  | .tryCast .. | .canCast .. | .cast .. => ["expression", "target_type"]
  | .condition .. => ["condition", "then", "else_"]
  | .coalesce .. => ["condition", "expression"]
  | .delegateCreate .. => ["delegate_type", "method", "target"]
  | .function .. => ["parameters", "body", "delegate_type"]
  | .lambda .. => ["parameters", "body"]
  | .argument _ => ["parameter"]
  | .declare _ | .variable _ => ["variable"]
  | .propertyIndexer .. | .arrayIndexer .. => ["target", "indices"]
  | .invoke .. => ["method", "arguments"]
  | .delegateInvoke .. => ["target", "arguments"]
  | .objectCreate .. => ["type", "constructor", "arguments", "initializer"]
  | .addressOf _ | .addressReference _ | .addressOut _ | .dereference _ | .typeOfTyped _
  | .createTyped _ => ["expression"]
  | .valueOfTyped .. => ["expression", "type"]
  | .snippet _ => ["text"]
  | .query .. => ["from_clause", "body"]

def Stmt.slotNames : Stmt → List String
  | .bare | .break | .continue | .debugBreak => []
  | .block _ => ["statements"]
  | .expression _ | .return _ | .throw _ => ["expression"]
  | .goto .. => ["name"]
  | .labeled .. => ["name", "statement"]
  | .condition .. => ["condition", "then", "else_"]
  | .for .. => ["initializer", "condition", "increment", "body"]
  | .forEach .. | .fixed .. => ["variable", "expression", "body"]
  | .using .. | .lock .. => ["expression", "body"]
  | .while .. | .do .. => ["condition", "body"]
  | .try .. => ["try_", "catch_clauses", "fault", "finally_"]
  | .attach .. | .detach .. => ["event", "listener"]
  | .switch .. => ["expression", "cases"]
  | .memoryCopy .. => ["source", "destination", "length"]
  | .memoryFill .. => ["offset", "value", "length"]
  | .comment _ => ["text"]

def Clause.slotNames : Clause → List String
  | .bare | .bareClause | .bareOperation => []
  | .from .. | .let .. => ["variable", "expression"]
  | .where _ | .select _ => ["expression"]
  | .join .. => ["variable", "in_expression", "on", "equality", "into"]
  | .ordering .. => ["expression", "direction"]
  | .order _ => ["expressions"]
  | .group .. => ["item", "key"]
  | .continuation .. => ["variable", "body"]
  | .queryBody .. => ["operation", "clauses", "continuation"]
  | .catch .. => ["body", "variable", "condition"]
  | .bareCase _ | .default _ => ["body"]
  | .case .. => ["body", "condition"]

/-! ### Texts of trees -/

/-- The text of a node: its kind, and the texts of its fields after their names. -/
def nodeText (kind : String) (names : List String) (texts : List (Except Fault String)) :
    Except Fault String :=
  (texts.mapM id).map fun texts =>
    kind ++ "(" ++ ", ".intercalate (List.zipWith (fun name text => name ++ "=" ++ text) names texts)
      ++ ")"

section

variable (entity : Entity → Except Fault String)

mutual

/-- The value with its contents told exactly, where `entity` tells the entities. -/
def Value.exactBy : Value → Except Fault String
  | .scalar s => s.told Scalar.exact
  | .list items => ((Value.exactAllBy items).mapM id).map fun texts =>
    "[" ++ ", ".intercalate texts ++ "]"
  | .entity e => entity e
  | .bounds lower upper => nodeText "ArrayDimension" ["lower_bound", "upper_bound"]
    [lower.told Scalar.exact, upper.told Scalar.exact]
  | .attribute constructor arguments => nodeText "CustomAttribute" ["constructor", "arguments"]
    [constructor.exactBy, arguments.exactBy]
  | .type tree => nodeText tree.kindName tree.slotNames tree.exactSlotsBy
  | .expr tree => nodeText tree.kindName tree.slotNames tree.exactSlotsBy
  | .stmt tree => nodeText tree.kindName tree.slotNames tree.exactSlotsBy
  | .clause tree => nodeText tree.kindName tree.slotNames tree.exactSlotsBy

def Value.exactAllBy : List Value → List (Except Fault String)
  | [] => []
  | first :: rest => first.exactBy :: Value.exactAllBy rest

def TypeTree.exactSlotsBy : TypeTree → List (Except Fault String)
  | .bare => []
  | .array a b | .required a b | .optional a b | .functionPointer a b | .genericArgument a b =>
    [a.exactBy, b.exactBy]
  | .pointer a | .reference a => [a.exactBy]

def Expr.exactSlotsBy : Expr → List (Except Fault String)
  | .bare | .argumentList | .base | .this => []
  | .typeOf a | .typeName a | .sizeOf a | .genericDefault a | .block a | .argument a | .declare a
  | .variable a | .addressOf a | .addressReference a | .addressOut a | .dereference a
  | .typeOfTyped a | .createTyped a | .snippet a => [a.exactBy]
  | .literal a b | .assign a b | .fieldOf a b | .methodOf a b | .initMember a b | .field a b
  | .event a b | .method a b | .property a b | .stackAllocate a b | .unary a b | .tryCast a b
  | .canCast a b | .cast a b | .coalesce a b | .lambda a b | .propertyIndexer a b
  | .arrayIndexer a b | .invoke a b | .delegateInvoke a b | .valueOfTyped a b | .query a b =>
    [a.exactBy, b.exactBy]
  | .arrayCreate a b c | .binary a b c | .condition a b c | .delegateCreate a b c
  | .function a b c => [a.exactBy, b.exactBy, c.exactBy]
  | .objectCreate a b c d => [a.exactBy, b.exactBy, c.exactBy, d.exactBy]

def Stmt.exactSlotsBy : Stmt → List (Except Fault String)
  | .bare | .break | .continue | .debugBreak => []
  | .block a | .expression a | .goto _ a | .return a | .throw a | .comment a => [a.exactBy]
  | .labeled _ a b | .using a b | .while a b | .do a b | .attach a b | .detach a b | .switch a b
  | .lock a b => [a.exactBy, b.exactBy]
  | .condition a b c | .forEach a b c | .fixed a b c | .memoryCopy a b c | .memoryFill a b c =>
    [a.exactBy, b.exactBy, c.exactBy]
  | .for a b c d | .try a b c d => [a.exactBy, b.exactBy, c.exactBy, d.exactBy]

def Clause.exactSlotsBy : Clause → List (Except Fault String)
  | .bare | .bareClause | .bareOperation => []
  | .where a | .order a | .select a | .bareCase a | .default a => [a.exactBy]
  | .from a b | .let a b | .ordering a b | .group a b | .continuation a b | .case a b =>
    [a.exactBy, b.exactBy]
  | .queryBody a b c | .catch a b c => [a.exactBy, b.exactBy, c.exactBy]
  | .join a b c d e => [a.exactBy, b.exactBy, c.exactBy, d.exactBy, e.exactBy]

end

theorem Value.exactAllBy_eq (vs : List Value) :
    Value.exactAllBy entity vs = vs.map (Value.exactBy entity) := by
  induction vs with
  | nil => rfl
  | cons v vs ih => rw [Value.exactAllBy, ih, List.map_cons]

theorem TypeTree.exactSlotsBy_eq (tree : TypeTree) :
    tree.exactSlotsBy entity = tree.slots.map (Value.exactBy entity) := by
  cases tree <;> rfl

theorem Expr.exactSlotsBy_eq (tree : Expr) :
    tree.exactSlotsBy entity = tree.slots.map (Value.exactBy entity) := by
  cases tree <;> rfl

theorem Stmt.exactSlotsBy_eq (tree : Stmt) :
    tree.exactSlotsBy entity = tree.slots.map (Value.exactBy entity) := by
  cases tree <;> rfl

theorem Clause.exactSlotsBy_eq (tree : Clause) :
    tree.exactSlotsBy entity = tree.slots.map (Value.exactBy entity) := by
  cases tree <;> rfl

end

namespace Program

/-- How many entities a program has in its tables. -/
def entities (p : Program) : Nat :=
  p.types.size + p.genericParameters.size + p.fields.size + p.methods.size + p.properties.size +
    p.events.size + p.parameters.size + p.locals.size + p.assemblies.size + p.modules.size +
    p.nameSpaces.size + p.resources.size

/-- The fields of an entity that are seen where it is shown. -/
def shownParts (p : Program) (e : Entity) : List Part := (p.parts e).filter (·.shown)

/-- The text of an entity that stands inside those of `around`, at most `depth` entities deep. -/
def entityTextWithin (p : Program) : Nat → List Entity → Entity → Except Fault String
  | 0, _, _ => .ok "..."
  | depth + 1, around, e =>
    if e ∈ around then .ok "..."
    else nodeText (p.kindName e) ((p.shownParts e).map (·.name))
      ((p.shownParts e).map fun part => part.value.exactBy (p.entityTextWithin depth (e :: around)))

/-- The text of an entity. Entities that all differ cannot stand deeper in each other than there are
entities, and one that is in no table has no links. -/
def entityText (p : Program) (e : Entity) : Except Fault String :=
  p.entityTextWithin (p.entities + 1) [] e

/-- The value with its contents told exactly. -/
def exact (p : Program) (v : Value) : Except Fault String := v.exactBy p.entityText

/-- The value as part of a line of text. -/
def plain (p : Program) (v : Value) : Except Fault String :=
  match v with
  | .scalar s => s.told Scalar.plain
  | v => p.exact v

theorem exact_scalar (p : Program) (s : Scalar) : p.exact (.scalar s) = s.told Scalar.exact := by
  rw [exact, Value.exactBy]

theorem plain_scalar (p : Program) (s : Scalar) : p.plain (.scalar s) = s.told Scalar.plain := by
  rw [plain]

/-- The fault of a literal, by the texts of its value and its kind. A kind is told only where one is
given. -/
def literalFault (p : Program) (value kind : Value) : Fault :=
  if kind.isSet then
    .showing (p.plain kind) fun kind => .showing (p.exact value) (.literal · (some kind))
  else .showing (p.exact value) (.literal · none)

end Program

end Scribe
