import Scribe.Tree.Slots

/-!
# Equality of trees

Two trees are alike when they have the same shape and the same parts. Scalars and entities are
compared by the tests that are passed in, and the marks of statements are not compared.

A tree may use one part in many places, and a comparison must not walk a part again and again only
to find it equal to itself. The tests here therefore come with the proof that a tree passes when it
is compared with itself; that allows `withPtrEq` to skip a part that is the same object on both
sides. In the logic `withPtrEq` is the test that it would skip.
-/

namespace Scribe

/-- The outcome of a test that is passed wherever `p` holds. -/
abbrev Passed (p : Prop) := { r : Bool // p → r = true }

namespace Passed

/-- Passed when both tests are. -/
@[macro_inline]
def and {p q : Prop} (a : Passed p) (b : Passed q) : Passed (p ∧ q) :=
  ⟨a.1 && b.1, fun h => by simp [a.2 h.1, b.2 h.2]⟩

@[macro_inline]
def of {p q : Prop} (a : Passed q) (f : p → q) : Passed p := ⟨a.1, fun h => a.2 (f h)⟩

/-- A test that is skipped when both sides are one object. -/
@[macro_inline]
def shared {α : Type} (a b : α) (test : Unit → Passed (a = b)) : Passed (a = b) :=
  ⟨withPtrEq a b (fun _ => (test ()).1) (test ()).2, (test ()).2⟩

end Passed

/-- The tests of scalars and entities that a comparison of trees comes down to. -/
structure Comparison where
  scalar : (a b : Scalar) → Passed (a = b)
  entity : (a b : Entity) → Passed (a = b)

namespace Scalar

theorem Magnitude.same_self (m : Magnitude) : m.same m = true := by
  cases m <;> simp [Magnitude.same, Digits.same]

theorem same_self (s : Scalar) : s.same s = true := by
  unfold same
  cases s.magnitude? with
  | none => simp
  | some m => simp [m.same_self]

/-- Scalars are compared by value. -/
def alike (a b : Scalar) : Passed (a = b) := ⟨a.same b, fun h => h ▸ a.same_self⟩

end Scalar

/-- A slot, and the test of what another tree has in its place. -/
structure SlotTest where
  slot : Value
  test : (other : Value) → Passed (slot = other)

/-- Whether the slots of another tree pass their tests. -/
def SlotTest.all : (tests : List SlotTest) → (others : List Value) →
    Passed (tests.map (·.slot) = others)
  | [], others => ⟨others.isEmpty, fun h => by simp [← h]⟩
  | _ :: _, [] => ⟨false, fun h => by simp at h⟩
  | first :: rest, other :: others =>
    ((first.test other).and (SlotTest.all rest others)).of List.cons.inj

/-- Whether two trees are built in the same way, and the tests of the slots are passed. `index` tells
how a tree is built. -/
def SlotTest.alike {α : Type} (index : α → Nat) (slots : α → List Value) (a b : α)
    (tests : List SlotTest) (h : tests.map (·.slot) = slots a) : Passed (a = b) :=
  ⟨index a == index b && (SlotTest.all tests (slots b)).1, fun e => by
    subst e
    simp [(SlotTest.all tests (slots a)).2 h]⟩

abbrev TypeTree.alikeBy := SlotTest.alike TypeTree.ctorIdx TypeTree.slots
abbrev Expr.alikeBy := SlotTest.alike Expr.ctorIdx Expr.slots
abbrev Stmt.alikeBy := SlotTest.alike Stmt.ctorIdx Stmt.slots
abbrev Clause.alikeBy := SlotTest.alike Clause.ctorIdx Clause.slots

namespace Value

/-- The forms of values. -/
inductive Form
  | scalar | list | entity | bounds | attribute | type | expr | stmt | clause
deriving DecidableEq, Repr

def form : Value → Form
  | .scalar _ => .scalar
  | .list _ => .list
  | .entity _ => .entity
  | .bounds .. => .bounds
  | .attribute .. => .attribute
  | .type _ => .type
  | .expr _ => .expr
  | .stmt _ => .stmt
  | .clause _ => .clause

def sameForm (a b : Value) : Passed (a = b) := ⟨a.form == b.form, fun h => by simp [h]⟩

end Value

mutual

def Value.alike (eq : Comparison) : (a b : Value) → Passed (a = b)
  | .scalar a, v => match v with
    | .scalar b => (eq.scalar a b).of Value.scalar.inj
    | v => Value.sameForm (.scalar a) v
  | .list as, v => match v with
    | .list bs => (Value.alikeAll eq as bs).of Value.list.inj
    | v => Value.sameForm (.list as) v
  | .entity a, v => match v with
    | .entity b => (eq.entity a b).of Value.entity.inj
    | v => Value.sameForm (.entity a) v
  | .bounds a b, v => match v with
    | .bounds i j => ((eq.scalar a i).and (eq.scalar b j)).of Value.bounds.inj
    | v => Value.sameForm (.bounds a b) v
  | .attribute a b, v => match v with
    | .attribute i j => ((a.alike eq i).and (b.alike eq j)).of Value.attribute.inj
    | v => Value.sameForm (.attribute a b) v
  | .type a, v => match v with
    | .type b => (Passed.shared a b fun _ => a.alike eq b).of Value.type.inj
    | v => Value.sameForm (.type a) v
  | .expr a, v => match v with
    | .expr b => (Passed.shared a b fun _ => a.alike eq b).of Value.expr.inj
    | v => Value.sameForm (.expr a) v
  | .stmt a, v => match v with
    | .stmt b => (Passed.shared a b fun _ => a.alike eq b).of Value.stmt.inj
    | v => Value.sameForm (.stmt a) v
  | .clause a, v => match v with
    | .clause b => (Passed.shared a b fun _ => a.alike eq b).of Value.clause.inj
    | v => Value.sameForm (.clause a) v
termination_by structural a => a

def Value.alikeAll (eq : Comparison) : (as bs : List Value) → Passed (as = bs)
  | [], vs => ⟨vs.isEmpty, fun h => by simp [← h]⟩
  | a :: as, vs => match vs with
    | b :: bs => ((a.alike eq b).and (Value.alikeAll eq as bs)).of List.cons.inj
    | [] => ⟨false, fun h => by simp at h⟩
termination_by structural a => a

def TypeTree.alike (eq : Comparison) : (a b : TypeTree) → Passed (a = b)
  | .bare, x => TypeTree.alikeBy .bare x [] rfl
  | .array a b, x => TypeTree.alikeBy (.array a b) x [⟨a, a.alike eq⟩, ⟨b, b.alike eq⟩] rfl
  | .pointer a, x => TypeTree.alikeBy (.pointer a) x [⟨a, a.alike eq⟩] rfl
  | .reference a, x => TypeTree.alikeBy (.reference a) x [⟨a, a.alike eq⟩] rfl
  | .required a b, x => TypeTree.alikeBy (.required a b) x [⟨a, a.alike eq⟩, ⟨b, b.alike eq⟩] rfl
  | .optional a b, x => TypeTree.alikeBy (.optional a b) x [⟨a, a.alike eq⟩, ⟨b, b.alike eq⟩] rfl
  | .functionPointer a b, x =>
    TypeTree.alikeBy (.functionPointer a b) x [⟨a, a.alike eq⟩, ⟨b, b.alike eq⟩] rfl
  | .genericArgument a b, x =>
    TypeTree.alikeBy (.genericArgument a b) x [⟨a, a.alike eq⟩, ⟨b, b.alike eq⟩] rfl
termination_by structural a => a

def Expr.alike (eq : Comparison) : (a b : Expr) → Passed (a = b)
  | .bare, x => Expr.alikeBy .bare x [] rfl
  | .literal a b, x => Expr.alikeBy (.literal a b) x [⟨a, a.alike eq⟩, ⟨b, b.alike eq⟩] rfl
  | .assign a b, x => Expr.alikeBy (.assign a b) x [⟨a, a.alike eq⟩, ⟨b, b.alike eq⟩] rfl
  | .typeOf a, x => Expr.alikeBy (.typeOf a) x [⟨a, a.alike eq⟩] rfl
  | .fieldOf a b, x => Expr.alikeBy (.fieldOf a b) x [⟨a, a.alike eq⟩, ⟨b, b.alike eq⟩] rfl
  | .methodOf a b, x => Expr.alikeBy (.methodOf a b) x [⟨a, a.alike eq⟩, ⟨b, b.alike eq⟩] rfl
  | .initMember a b, x => Expr.alikeBy (.initMember a b) x [⟨a, a.alike eq⟩, ⟨b, b.alike eq⟩] rfl
  | .typeName a, x => Expr.alikeBy (.typeName a) x [⟨a, a.alike eq⟩] rfl
  | .field a b, x => Expr.alikeBy (.field a b) x [⟨a, a.alike eq⟩, ⟨b, b.alike eq⟩] rfl
  | .event a b, x => Expr.alikeBy (.event a b) x [⟨a, a.alike eq⟩, ⟨b, b.alike eq⟩] rfl
  | .method a b, x => Expr.alikeBy (.method a b) x [⟨a, a.alike eq⟩, ⟨b, b.alike eq⟩] rfl
  | .property a b, x => Expr.alikeBy (.property a b) x [⟨a, a.alike eq⟩, ⟨b, b.alike eq⟩] rfl
  | .argumentList, x => Expr.alikeBy .argumentList x [] rfl
  | .stackAllocate a b, x =>
    Expr.alikeBy (.stackAllocate a b) x [⟨a, a.alike eq⟩, ⟨b, b.alike eq⟩] rfl
  | .block a, x => Expr.alikeBy (.block a) x [⟨a, a.alike eq⟩] rfl
  | .arrayCreate a b c, x =>
    Expr.alikeBy (.arrayCreate a b c) x [⟨a, a.alike eq⟩, ⟨b, b.alike eq⟩, ⟨c, c.alike eq⟩] rfl
  | .base, x => Expr.alikeBy .base x [] rfl
  | .this, x => Expr.alikeBy .this x [] rfl
  | .unary a b, x => Expr.alikeBy (.unary a b) x [⟨a, a.alike eq⟩, ⟨b, b.alike eq⟩] rfl
  | .binary a b c, x =>
    Expr.alikeBy (.binary a b c) x [⟨a, a.alike eq⟩, ⟨b, b.alike eq⟩, ⟨c, c.alike eq⟩] rfl
  | .tryCast a b, x => Expr.alikeBy (.tryCast a b) x [⟨a, a.alike eq⟩, ⟨b, b.alike eq⟩] rfl
  | .canCast a b, x => Expr.alikeBy (.canCast a b) x [⟨a, a.alike eq⟩, ⟨b, b.alike eq⟩] rfl
  | .cast a b, x => Expr.alikeBy (.cast a b) x [⟨a, a.alike eq⟩, ⟨b, b.alike eq⟩] rfl
  | .condition a b c, x =>
    Expr.alikeBy (.condition a b c) x [⟨a, a.alike eq⟩, ⟨b, b.alike eq⟩, ⟨c, c.alike eq⟩] rfl
  | .coalesce a b, x => Expr.alikeBy (.coalesce a b) x [⟨a, a.alike eq⟩, ⟨b, b.alike eq⟩] rfl
  | .delegateCreate a b c, x =>
    Expr.alikeBy (.delegateCreate a b c) x [⟨a, a.alike eq⟩, ⟨b, b.alike eq⟩, ⟨c, c.alike eq⟩] rfl
  | .function a b c, x =>
    Expr.alikeBy (.function a b c) x [⟨a, a.alike eq⟩, ⟨b, b.alike eq⟩, ⟨c, c.alike eq⟩] rfl
  | .lambda a b, x => Expr.alikeBy (.lambda a b) x [⟨a, a.alike eq⟩, ⟨b, b.alike eq⟩] rfl
  | .argument a, x => Expr.alikeBy (.argument a) x [⟨a, a.alike eq⟩] rfl
  | .declare a, x => Expr.alikeBy (.declare a) x [⟨a, a.alike eq⟩] rfl
  | .variable a, x => Expr.alikeBy (.variable a) x [⟨a, a.alike eq⟩] rfl
  | .propertyIndexer a b, x =>
    Expr.alikeBy (.propertyIndexer a b) x [⟨a, a.alike eq⟩, ⟨b, b.alike eq⟩] rfl
  | .arrayIndexer a b, x =>
    Expr.alikeBy (.arrayIndexer a b) x [⟨a, a.alike eq⟩, ⟨b, b.alike eq⟩] rfl
  | .invoke a b, x => Expr.alikeBy (.invoke a b) x [⟨a, a.alike eq⟩, ⟨b, b.alike eq⟩] rfl
  | .delegateInvoke a b, x =>
    Expr.alikeBy (.delegateInvoke a b) x [⟨a, a.alike eq⟩, ⟨b, b.alike eq⟩] rfl
  | .objectCreate a b c d, x =>
    Expr.alikeBy (.objectCreate a b c d) x
      [⟨a, a.alike eq⟩, ⟨b, b.alike eq⟩, ⟨c, c.alike eq⟩, ⟨d, d.alike eq⟩] rfl
  | .addressOf a, x => Expr.alikeBy (.addressOf a) x [⟨a, a.alike eq⟩] rfl
  | .addressReference a, x => Expr.alikeBy (.addressReference a) x [⟨a, a.alike eq⟩] rfl
  | .addressOut a, x => Expr.alikeBy (.addressOut a) x [⟨a, a.alike eq⟩] rfl
  | .dereference a, x => Expr.alikeBy (.dereference a) x [⟨a, a.alike eq⟩] rfl
  | .sizeOf a, x => Expr.alikeBy (.sizeOf a) x [⟨a, a.alike eq⟩] rfl
  | .typeOfTyped a, x => Expr.alikeBy (.typeOfTyped a) x [⟨a, a.alike eq⟩] rfl
  | .valueOfTyped a b, x =>
    Expr.alikeBy (.valueOfTyped a b) x [⟨a, a.alike eq⟩, ⟨b, b.alike eq⟩] rfl
  | .createTyped a, x => Expr.alikeBy (.createTyped a) x [⟨a, a.alike eq⟩] rfl
  | .genericDefault a, x => Expr.alikeBy (.genericDefault a) x [⟨a, a.alike eq⟩] rfl
  | .snippet a, x => Expr.alikeBy (.snippet a) x [⟨a, a.alike eq⟩] rfl
  | .query a b, x => Expr.alikeBy (.query a b) x [⟨a, a.alike eq⟩, ⟨b, b.alike eq⟩] rfl
termination_by structural a => a

def Stmt.alike (eq : Comparison) : (a b : Stmt) → Passed (a = b)
  | .bare, x => Stmt.alikeBy .bare x [] rfl
  | .block a, x => Stmt.alikeBy (.block a) x [⟨a, a.alike eq⟩] rfl
  | .expression a, x => Stmt.alikeBy (.expression a) x [⟨a, a.alike eq⟩] rfl
  | .goto m a, x => Stmt.alikeBy (.goto m a) x [⟨a, a.alike eq⟩] rfl
  | .labeled m a b, x => Stmt.alikeBy (.labeled m a b) x [⟨a, a.alike eq⟩, ⟨b, b.alike eq⟩] rfl
  | .condition a b c, x =>
    Stmt.alikeBy (.condition a b c) x [⟨a, a.alike eq⟩, ⟨b, b.alike eq⟩, ⟨c, c.alike eq⟩] rfl
  | .return a, x => Stmt.alikeBy (.return a) x [⟨a, a.alike eq⟩] rfl
  | .for a b c d, x =>
    Stmt.alikeBy (.for a b c d) x
      [⟨a, a.alike eq⟩, ⟨b, b.alike eq⟩, ⟨c, c.alike eq⟩, ⟨d, d.alike eq⟩] rfl
  | .forEach a b c, x =>
    Stmt.alikeBy (.forEach a b c) x [⟨a, a.alike eq⟩, ⟨b, b.alike eq⟩, ⟨c, c.alike eq⟩] rfl
  | .using a b, x => Stmt.alikeBy (.using a b) x [⟨a, a.alike eq⟩, ⟨b, b.alike eq⟩] rfl
  | .fixed a b c, x =>
    Stmt.alikeBy (.fixed a b c) x [⟨a, a.alike eq⟩, ⟨b, b.alike eq⟩, ⟨c, c.alike eq⟩] rfl
  | .while a b, x => Stmt.alikeBy (.while a b) x [⟨a, a.alike eq⟩, ⟨b, b.alike eq⟩] rfl
  | .do a b, x => Stmt.alikeBy (.do a b) x [⟨a, a.alike eq⟩, ⟨b, b.alike eq⟩] rfl
  | .try a b c d, x =>
    Stmt.alikeBy (.try a b c d) x
      [⟨a, a.alike eq⟩, ⟨b, b.alike eq⟩, ⟨c, c.alike eq⟩, ⟨d, d.alike eq⟩] rfl
  | .throw a, x => Stmt.alikeBy (.throw a) x [⟨a, a.alike eq⟩] rfl
  | .attach a b, x => Stmt.alikeBy (.attach a b) x [⟨a, a.alike eq⟩, ⟨b, b.alike eq⟩] rfl
  | .detach a b, x => Stmt.alikeBy (.detach a b) x [⟨a, a.alike eq⟩, ⟨b, b.alike eq⟩] rfl
  | .switch a b, x => Stmt.alikeBy (.switch a b) x [⟨a, a.alike eq⟩, ⟨b, b.alike eq⟩] rfl
  | .break, x => Stmt.alikeBy .break x [] rfl
  | .continue, x => Stmt.alikeBy .continue x [] rfl
  | .memoryCopy a b c, x =>
    Stmt.alikeBy (.memoryCopy a b c) x [⟨a, a.alike eq⟩, ⟨b, b.alike eq⟩, ⟨c, c.alike eq⟩] rfl
  | .memoryFill a b c, x =>
    Stmt.alikeBy (.memoryFill a b c) x [⟨a, a.alike eq⟩, ⟨b, b.alike eq⟩, ⟨c, c.alike eq⟩] rfl
  | .debugBreak, x => Stmt.alikeBy .debugBreak x [] rfl
  | .lock a b, x => Stmt.alikeBy (.lock a b) x [⟨a, a.alike eq⟩, ⟨b, b.alike eq⟩] rfl
  | .comment a, x => Stmt.alikeBy (.comment a) x [⟨a, a.alike eq⟩] rfl
termination_by structural a => a

def Clause.alike (eq : Comparison) : (a b : Clause) → Passed (a = b)
  | .bare, x => Clause.alikeBy .bare x [] rfl
  | .bareClause, x => Clause.alikeBy .bareClause x [] rfl
  | .bareOperation, x => Clause.alikeBy .bareOperation x [] rfl
  | .from a b, x => Clause.alikeBy (.from a b) x [⟨a, a.alike eq⟩, ⟨b, b.alike eq⟩] rfl
  | .where a, x => Clause.alikeBy (.where a) x [⟨a, a.alike eq⟩] rfl
  | .let a b, x => Clause.alikeBy (.let a b) x [⟨a, a.alike eq⟩, ⟨b, b.alike eq⟩] rfl
  | .join a b c d e, x =>
    Clause.alikeBy (.join a b c d e) x
      [⟨a, a.alike eq⟩, ⟨b, b.alike eq⟩, ⟨c, c.alike eq⟩, ⟨d, d.alike eq⟩, ⟨e, e.alike eq⟩] rfl
  | .ordering a b, x => Clause.alikeBy (.ordering a b) x [⟨a, a.alike eq⟩, ⟨b, b.alike eq⟩] rfl
  | .order a, x => Clause.alikeBy (.order a) x [⟨a, a.alike eq⟩] rfl
  | .select a, x => Clause.alikeBy (.select a) x [⟨a, a.alike eq⟩] rfl
  | .group a b, x => Clause.alikeBy (.group a b) x [⟨a, a.alike eq⟩, ⟨b, b.alike eq⟩] rfl
  | .continuation a b, x =>
    Clause.alikeBy (.continuation a b) x [⟨a, a.alike eq⟩, ⟨b, b.alike eq⟩] rfl
  | .queryBody a b c, x =>
    Clause.alikeBy (.queryBody a b c) x [⟨a, a.alike eq⟩, ⟨b, b.alike eq⟩, ⟨c, c.alike eq⟩] rfl
  | .catch a b c, x =>
    Clause.alikeBy (.catch a b c) x [⟨a, a.alike eq⟩, ⟨b, b.alike eq⟩, ⟨c, c.alike eq⟩] rfl
  | .bareCase a, x => Clause.alikeBy (.bareCase a) x [⟨a, a.alike eq⟩] rfl
  | .case a b, x => Clause.alikeBy (.case a b) x [⟨a, a.alike eq⟩, ⟨b, b.alike eq⟩] rfl
  | .default a, x => Clause.alikeBy (.default a) x [⟨a, a.alike eq⟩] rfl
termination_by structural a => a

end

/-- Whether two values are alike. -/
def Value.same (eq : Comparison) (a b : Value) : Bool := (a.alike eq b).1

end Scribe
