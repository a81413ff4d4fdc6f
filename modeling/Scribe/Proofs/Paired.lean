import Mathlib.Data.List.Forall2
import Mathlib.Logic.Relation
import Scribe.Proofs.Slots
import Scribe.Tree.Same

/-!
# Trees with related slots

`Paired P`: the trees that are built in the same way and whose slots are related by `P`, one rule for
each way of building a tree. `Value.same` is the relation that pairs trees with itself all the way
down (`Value.same_iff`), and what a recursion over two paired trees shows is shown slot by slot
(`Value.paired_induction`).
-/

namespace Scribe

inductive TypeTree.Paired (P : Value → Value → Prop) : TypeTree → TypeTree → Prop
  | bare : Paired P .bare .bare
  | array {a b i j : Value} : P a i → P b j → Paired P (.array a b) (.array i j)
  | pointer {a i : Value} : P a i → Paired P (.pointer a) (.pointer i)
  | reference {a i : Value} : P a i → Paired P (.reference a) (.reference i)
  | required {a b i j : Value} : P a i → P b j → Paired P (.required a b) (.required i j)
  | optional {a b i j : Value} : P a i → P b j → Paired P (.optional a b) (.optional i j)
  | functionPointer {a b i j : Value} : P a i → P b j →
    Paired P (.functionPointer a b) (.functionPointer i j)
  | genericArgument {a b i j : Value} : P a i → P b j →
    Paired P (.genericArgument a b) (.genericArgument i j)

inductive Expr.Paired (P : Value → Value → Prop) : Expr → Expr → Prop
  | bare : Paired P .bare .bare
  | literal {a b i j : Value} : P a i → P b j → Paired P (.literal a b) (.literal i j)
  | assign {a b i j : Value} : P a i → P b j → Paired P (.assign a b) (.assign i j)
  | typeOf {a i : Value} : P a i → Paired P (.typeOf a) (.typeOf i)
  | fieldOf {a b i j : Value} : P a i → P b j → Paired P (.fieldOf a b) (.fieldOf i j)
  | methodOf {a b i j : Value} : P a i → P b j → Paired P (.methodOf a b) (.methodOf i j)
  | initMember {a b i j : Value} : P a i → P b j → Paired P (.initMember a b) (.initMember i j)
  | typeName {a i : Value} : P a i → Paired P (.typeName a) (.typeName i)
  | field {a b i j : Value} : P a i → P b j → Paired P (.field a b) (.field i j)
  | event {a b i j : Value} : P a i → P b j → Paired P (.event a b) (.event i j)
  | method {a b i j : Value} : P a i → P b j → Paired P (.method a b) (.method i j)
  | property {a b i j : Value} : P a i → P b j → Paired P (.property a b) (.property i j)
  | argumentList : Paired P .argumentList .argumentList
  | stackAllocate {a b i j : Value} : P a i → P b j →
    Paired P (.stackAllocate a b) (.stackAllocate i j)
  | block {a i : Value} : P a i → Paired P (.block a) (.block i)
  | arrayCreate {a b c i j k : Value} : P a i → P b j → P c k →
    Paired P (.arrayCreate a b c) (.arrayCreate i j k)
  | base : Paired P .base .base
  | this : Paired P .this .this
  | unary {a b i j : Value} : P a i → P b j → Paired P (.unary a b) (.unary i j)
  | binary {a b c i j k : Value} : P a i → P b j → P c k → Paired P (.binary a b c) (.binary i j k)
  | tryCast {a b i j : Value} : P a i → P b j → Paired P (.tryCast a b) (.tryCast i j)
  | canCast {a b i j : Value} : P a i → P b j → Paired P (.canCast a b) (.canCast i j)
  | cast {a b i j : Value} : P a i → P b j → Paired P (.cast a b) (.cast i j)
  | condition {a b c i j k : Value} : P a i → P b j → P c k →
    Paired P (.condition a b c) (.condition i j k)
  | coalesce {a b i j : Value} : P a i → P b j → Paired P (.coalesce a b) (.coalesce i j)
  | delegateCreate {a b c i j k : Value} : P a i → P b j → P c k →
    Paired P (.delegateCreate a b c) (.delegateCreate i j k)
  | function {a b c i j k : Value} : P a i → P b j → P c k →
    Paired P (.function a b c) (.function i j k)
  | lambda {a b i j : Value} : P a i → P b j → Paired P (.lambda a b) (.lambda i j)
  | argument {a i : Value} : P a i → Paired P (.argument a) (.argument i)
  | declare {a i : Value} : P a i → Paired P (.declare a) (.declare i)
  | variable {a i : Value} : P a i → Paired P (.variable a) (.variable i)
  | propertyIndexer {a b i j : Value} : P a i → P b j →
    Paired P (.propertyIndexer a b) (.propertyIndexer i j)
  | arrayIndexer {a b i j : Value} : P a i → P b j →
    Paired P (.arrayIndexer a b) (.arrayIndexer i j)
  | invoke {a b i j : Value} : P a i → P b j → Paired P (.invoke a b) (.invoke i j)
  | delegateInvoke {a b i j : Value} : P a i → P b j →
    Paired P (.delegateInvoke a b) (.delegateInvoke i j)
  | objectCreate {a b c d i j k l : Value} : P a i → P b j → P c k → P d l →
    Paired P (.objectCreate a b c d) (.objectCreate i j k l)
  | addressOf {a i : Value} : P a i → Paired P (.addressOf a) (.addressOf i)
  | addressReference {a i : Value} : P a i → Paired P (.addressReference a) (.addressReference i)
  | addressOut {a i : Value} : P a i → Paired P (.addressOut a) (.addressOut i)
  | dereference {a i : Value} : P a i → Paired P (.dereference a) (.dereference i)
  | sizeOf {a i : Value} : P a i → Paired P (.sizeOf a) (.sizeOf i)
  | typeOfTyped {a i : Value} : P a i → Paired P (.typeOfTyped a) (.typeOfTyped i)
  | valueOfTyped {a b i j : Value} : P a i → P b j →
    Paired P (.valueOfTyped a b) (.valueOfTyped i j)
  | createTyped {a i : Value} : P a i → Paired P (.createTyped a) (.createTyped i)
  | genericDefault {a i : Value} : P a i → Paired P (.genericDefault a) (.genericDefault i)
  | snippet {a i : Value} : P a i → Paired P (.snippet a) (.snippet i)
  | query {a b i j : Value} : P a i → P b j → Paired P (.query a b) (.query i j)

inductive Stmt.Paired (P : Value → Value → Prop) : Stmt → Stmt → Prop
  | bare : Paired P .bare .bare
  | block {a i : Value} : P a i → Paired P (.block a) (.block i)
  | expression {a i : Value} : P a i → Paired P (.expression a) (.expression i)
  | goto {m n : Nat} {a i : Value} : P a i → Paired P (.goto m a) (.goto n i)
  | labeled {m n : Nat} {a b i j : Value} : P a i → P b j →
    Paired P (.labeled m a b) (.labeled n i j)
  | condition {a b c i j k : Value} : P a i → P b j → P c k →
    Paired P (.condition a b c) (.condition i j k)
  | return {a i : Value} : P a i → Paired P (.return a) (.return i)
  | for {a b c d i j k l : Value} : P a i → P b j → P c k → P d l →
    Paired P (.for a b c d) (.for i j k l)
  | forEach {a b c i j k : Value} : P a i → P b j → P c k →
    Paired P (.forEach a b c) (.forEach i j k)
  | using {a b i j : Value} : P a i → P b j → Paired P (.using a b) (.using i j)
  | fixed {a b c i j k : Value} : P a i → P b j → P c k → Paired P (.fixed a b c) (.fixed i j k)
  | while {a b i j : Value} : P a i → P b j → Paired P (.while a b) (.while i j)
  | do {a b i j : Value} : P a i → P b j → Paired P (.do a b) (.do i j)
  | try {a b c d i j k l : Value} : P a i → P b j → P c k → P d l →
    Paired P (.try a b c d) (.try i j k l)
  | throw {a i : Value} : P a i → Paired P (.throw a) (.throw i)
  | attach {a b i j : Value} : P a i → P b j → Paired P (.attach a b) (.attach i j)
  | detach {a b i j : Value} : P a i → P b j → Paired P (.detach a b) (.detach i j)
  | switch {a b i j : Value} : P a i → P b j → Paired P (.switch a b) (.switch i j)
  | break : Paired P .break .break
  | continue : Paired P .continue .continue
  | memoryCopy {a b c i j k : Value} : P a i → P b j → P c k →
    Paired P (.memoryCopy a b c) (.memoryCopy i j k)
  | memoryFill {a b c i j k : Value} : P a i → P b j → P c k →
    Paired P (.memoryFill a b c) (.memoryFill i j k)
  | debugBreak : Paired P .debugBreak .debugBreak
  | lock {a b i j : Value} : P a i → P b j → Paired P (.lock a b) (.lock i j)
  | comment {a i : Value} : P a i → Paired P (.comment a) (.comment i)

inductive Clause.Paired (P : Value → Value → Prop) : Clause → Clause → Prop
  | bare : Paired P .bare .bare
  | bareClause : Paired P .bareClause .bareClause
  | bareOperation : Paired P .bareOperation .bareOperation
  | from {a b i j : Value} : P a i → P b j → Paired P (.from a b) (.from i j)
  | where {a i : Value} : P a i → Paired P (.where a) (.where i)
  | let {a b i j : Value} : P a i → P b j → Paired P (.let a b) (.let i j)
  | join {a b c d e i j k l m : Value} : P a i → P b j → P c k → P d l → P e m →
    Paired P (.join a b c d e) (.join i j k l m)
  | ordering {a b i j : Value} : P a i → P b j → Paired P (.ordering a b) (.ordering i j)
  | order {a i : Value} : P a i → Paired P (.order a) (.order i)
  | select {a i : Value} : P a i → Paired P (.select a) (.select i)
  | group {a b i j : Value} : P a i → P b j → Paired P (.group a b) (.group i j)
  | continuation {a b i j : Value} : P a i → P b j →
    Paired P (.continuation a b) (.continuation i j)
  | queryBody {a b c i j k : Value} : P a i → P b j → P c k →
    Paired P (.queryBody a b c) (.queryBody i j k)
  | catch {a b c i j k : Value} : P a i → P b j → P c k → Paired P (.catch a b c) (.catch i j k)
  | bareCase {a i : Value} : P a i → Paired P (.bareCase a) (.bareCase i)
  | case {a b i j : Value} : P a i → P b j → Paired P (.case a b) (.case i j)
  | default {a i : Value} : P a i → Paired P (.default a) (.default i)

/-- Scalars related by `S` and entities related by `E`, or trees that are paired. -/
inductive Value.Paired (S : Scalar → Scalar → Prop) (E : Entity → Entity → Prop)
    (P : Value → Value → Prop) : Value → Value → Prop
  | scalar {a b : Scalar} : S a b → Paired S E P (.scalar a) (.scalar b)
  | list {as bs : List Value} : List.Forall₂ P as bs → Paired S E P (.list as) (.list bs)
  | entity {a b : Entity} : E a b → Paired S E P (.entity a) (.entity b)
  | bounds {a b i j : Scalar} : S a i → S b j → Paired S E P (.bounds a b) (.bounds i j)
  | attribute {a b i j : Value} : P a i → P b j → Paired S E P (.attribute a b) (.attribute i j)
  | type {a b : TypeTree} : TypeTree.Paired P a b → Paired S E P (.type a) (.type b)
  | expr {a b : Expr} : Expr.Paired P a b → Paired S E P (.expr a) (.expr b)
  | stmt {a b : Stmt} : Stmt.Paired P a b → Paired S E P (.stmt a) (.stmt b)
  | clause {a b : Clause} : Clause.Paired P a b → Paired S E P (.clause a) (.clause b)

section

variable {P Q : Value → Value → Prop}

variable {α : Type} {R R' : α → α → Prop} {as bs cs : List α}

theorem forall₂_of_mem (h : List.Forall₂ R as bs) (hr : ∀ a ∈ as, ∀ b, R a b → R' a b) :
    List.Forall₂ R' as bs := by
  induction h with
  | nil => exact .nil
  | cons h _ ih =>
    refine .cons (hr _ (List.mem_cons_self ..) _ h) (ih fun a ha => hr a ?_)
    exact List.mem_cons_of_mem _ ha

theorem forall₂_comp (h : List.Forall₂ R as bs) (h' : List.Forall₂ R' bs cs) :
    List.Forall₂ (Relation.Comp R R') as cs := by
  induction h generalizing cs with
  | nil => cases h'; exact .nil
  | cons h _ ih => cases h' with | cons h' hs' => exact .cons ⟨_, h, h'⟩ (ih hs')

theorem forall₂_and (h : List.Forall₂ R as bs) (h' : List.Forall₂ R' as bs) :
    List.Forall₂ (fun a b => R a b ∧ R' a b) as bs := by
  induction h with
  | nil => exact .nil
  | cons h _ ih => cases h' with | cons h' hs' => exact .cons ⟨h, h'⟩ (ih hs')

theorem Value.alikeAll_iff {eq : Comparison} {as bs : List Value} :
    (Value.alikeAll eq as bs).1 = true ↔ List.Forall₂ (fun v w => v.same eq w = true) as bs := by
  induction as generalizing bs with
  | nil => cases bs <;> simp [alikeAll]
  | cons a as ih => cases bs <;> simp [alikeAll, Passed.and, Passed.of, ih, Value.same]

theorem SlotTest.all_iff {tests : List SlotTest} {ws : List Value} :
    (SlotTest.all tests ws).1 = true ↔
      List.Forall₂ (fun t w => (SlotTest.test t w).1 = true) tests ws := by
  induction tests generalizing ws with
  | nil => cases ws <;> simp [SlotTest.all]
  | cons t tests ih => cases ws <;> simp [SlotTest.all, Passed.and, Passed.of, ih]

namespace TypeTree

variable {a b : TypeTree}

theorem paired_of_ctorIdx (h : a.ctorIdx = b.ctorIdx) : Paired (fun _ _ => True) a b := by
  cases a <;>
  · refine TypeTree.ctorElim _ b h ⟨?_⟩
    intros
    constructor <;> trivial

theorem paired_iff : Paired P a b ↔ a.ctorIdx = b.ctorIdx ∧ List.Forall₂ P a.slots b.slots := by
  constructor
  · intro h
    cases h <;> simp [TypeTree.ctorIdx, slots, *]
  · rintro ⟨hi, hs⟩
    cases paired_of_ctorIdx hi <;>
      simp only [slots, List.forall₂_cons, List.forall₂_nil_left_iff, and_true] at hs <;>
      constructor <;> tauto

theorem alike_iff {eq : Comparison} :
    (a.alike eq b).1 = true ↔ Paired (fun v w => v.same eq w = true) a b := by
  have hb : (a.alike eq b).1 = (a.ctorIdx == b.ctorIdx &&
      (SlotTest.all (a.slots.map fun v => ⟨v, v.alike eq⟩) b.slots).1) := by
    cases a <;> rfl
  rw [hb, paired_iff, Bool.and_eq_true, beq_iff_eq, SlotTest.all_iff, List.forall₂_map_left_iff]
  rfl

end TypeTree

namespace Expr

variable {a b : Expr}

theorem paired_of_ctorIdx (h : a.ctorIdx = b.ctorIdx) : Paired (fun _ _ => True) a b := by
  cases a <;>
  · refine Expr.ctorElim _ b h ⟨?_⟩
    intros
    constructor <;> trivial

theorem paired_iff : Paired P a b ↔ a.ctorIdx = b.ctorIdx ∧ List.Forall₂ P a.slots b.slots := by
  constructor
  · intro h
    cases h <;> simp [Expr.ctorIdx, slots, *]
  · rintro ⟨hi, hs⟩
    cases paired_of_ctorIdx hi <;>
      simp only [slots, List.forall₂_cons, List.forall₂_nil_left_iff, and_true] at hs <;>
      constructor <;> tauto

theorem alike_iff {eq : Comparison} :
    (a.alike eq b).1 = true ↔ Paired (fun v w => v.same eq w = true) a b := by
  have hb : (a.alike eq b).1 = (a.ctorIdx == b.ctorIdx &&
      (SlotTest.all (a.slots.map fun v => ⟨v, v.alike eq⟩) b.slots).1) := by
    cases a <;> rfl
  rw [hb, paired_iff, Bool.and_eq_true, beq_iff_eq, SlotTest.all_iff, List.forall₂_map_left_iff]
  rfl

end Expr

namespace Stmt

variable {a b : Stmt}

theorem paired_of_ctorIdx (h : a.ctorIdx = b.ctorIdx) : Paired (fun _ _ => True) a b := by
  cases a <;>
  · refine Stmt.ctorElim _ b h ⟨?_⟩
    intros
    constructor <;> trivial

theorem paired_iff : Paired P a b ↔ a.ctorIdx = b.ctorIdx ∧ List.Forall₂ P a.slots b.slots := by
  constructor
  · intro h
    cases h <;> simp [Stmt.ctorIdx, slots, *]
  · rintro ⟨hi, hs⟩
    cases paired_of_ctorIdx hi <;>
      simp only [slots, List.forall₂_cons, List.forall₂_nil_left_iff, and_true] at hs <;>
      constructor <;> tauto

theorem alike_iff {eq : Comparison} :
    (a.alike eq b).1 = true ↔ Paired (fun v w => v.same eq w = true) a b := by
  have hb : (a.alike eq b).1 = (a.ctorIdx == b.ctorIdx &&
      (SlotTest.all (a.slots.map fun v => ⟨v, v.alike eq⟩) b.slots).1) := by
    cases a <;> rfl
  rw [hb, paired_iff, Bool.and_eq_true, beq_iff_eq, SlotTest.all_iff, List.forall₂_map_left_iff]
  rfl

end Stmt

namespace Clause

variable {a b : Clause}

theorem paired_of_ctorIdx (h : a.ctorIdx = b.ctorIdx) : Paired (fun _ _ => True) a b := by
  cases a <;>
  · refine Clause.ctorElim _ b h ⟨?_⟩
    intros
    constructor <;> trivial

theorem paired_iff : Paired P a b ↔ a.ctorIdx = b.ctorIdx ∧ List.Forall₂ P a.slots b.slots := by
  constructor
  · intro h
    cases h <;> simp [Clause.ctorIdx, slots, *]
  · rintro ⟨hi, hs⟩
    cases paired_of_ctorIdx hi <;>
      simp only [slots, List.forall₂_cons, List.forall₂_nil_left_iff, and_true] at hs <;>
      constructor <;> tauto

theorem alike_iff {eq : Comparison} :
    (a.alike eq b).1 = true ↔ Paired (fun v w => v.same eq w = true) a b := by
  have hb : (a.alike eq b).1 = (a.ctorIdx == b.ctorIdx &&
      (SlotTest.all (a.slots.map fun v => ⟨v, v.alike eq⟩) b.slots).1) := by
    cases a <;> rfl
  rw [hb, paired_iff, Bool.and_eq_true, beq_iff_eq, SlotTest.all_iff, List.forall₂_map_left_iff]
  rfl

end Clause

namespace Value

variable {S S' : Scalar → Scalar → Prop} {E E' : Entity → Entity → Prop} {v w x : Value}

theorem same_iff {eq : Comparison} : v.same eq w = true ↔
    Paired (fun a b => (eq.scalar a b).1 = true) (fun a b => (eq.entity a b).1 = true)
      (fun v w => v.same eq w = true) v w := by
  constructor
  · intro h
    cases v <;> cases w <;> try exact absurd h Bool.false_ne_true
    · exact .scalar h
    · exact .list (alikeAll_iff.1 h)
    · exact .entity h
    · exact .bounds (Bool.and_eq_true_iff.1 h).1 (Bool.and_eq_true_iff.1 h).2
    · exact .attribute (Bool.and_eq_true_iff.1 h).1 (Bool.and_eq_true_iff.1 h).2
    · exact .type (TypeTree.alike_iff.1 h)
    · exact .expr (Expr.alike_iff.1 h)
    · exact .stmt (Stmt.alike_iff.1 h)
    · exact .clause (Clause.alike_iff.1 h)
  · intro h
    cases h with
    | scalar h | entity h => exact h
    | list h => exact alikeAll_iff.2 h
    | bounds h h' | «attribute» h h' => exact Bool.and_eq_true_iff.2 ⟨h, h'⟩
    | type h => exact TypeTree.alike_iff.2 h
    | expr h => exact Expr.alike_iff.2 h
    | stmt h => exact Stmt.alike_iff.2 h
    | clause h => exact Clause.alike_iff.2 h

namespace Paired

theorem slots (h : Paired S E P v w) : List.Forall₂ P v.slots w.slots := by
  cases h with
  | scalar | entity | bounds => exact .nil
  | list h => exact h
  | «attribute» h h' => exact .cons h (.cons h' .nil)
  | type h => exact (TypeTree.paired_iff.1 h).2
  | expr h => exact (Expr.paired_iff.1 h).2
  | stmt h => exact (Stmt.paired_iff.1 h).2
  | clause h => exact (Clause.paired_iff.1 h).2

theorem refl (hs : ∀ s, S s s) (he : ∀ e, E e e) (hp : ∀ v, P v v) (v : Value) :
    Paired S E P v v := by
  have hslots (l : List Value) : List.Forall₂ P l l := List.forall₂_same.2 fun u _ => hp u
  cases v with
  | scalar s => exact .scalar (hs s)
  | list l => exact .list (hslots l)
  | entity e => exact .entity (he e)
  | bounds => exact .bounds (hs _) (hs _)
  | «attribute» => exact .attribute (hp _) (hp _)
  | type => exact .type (TypeTree.paired_iff.2 ⟨rfl, hslots _⟩)
  | expr => exact .expr (Expr.paired_iff.2 ⟨rfl, hslots _⟩)
  | stmt => exact .stmt (Stmt.paired_iff.2 ⟨rfl, hslots _⟩)
  | clause => exact .clause (Clause.paired_iff.2 ⟨rfl, hslots _⟩)

/-- Values stay paired when their slots are related in another way. -/
theorem relate (h : Paired S E P v w) (hs : ∀ a b, S a b → S' a b) (he : ∀ a b, E a b → E' a b)
    (hq : List.Forall₂ Q v.slots w.slots) : Paired S' E' Q v w := by
  cases h with
  | scalar h => exact .scalar (hs _ _ h)
  | entity h => exact .entity (he _ _ h)
  | list => exact .list hq
  | bounds h h' => exact .bounds (hs _ _ h) (hs _ _ h')
  | «attribute» => cases hq with | cons h hq => cases hq with | cons h' => exact .attribute h h'
  | type h => exact .type (TypeTree.paired_iff.2 ⟨(TypeTree.paired_iff.1 h).1, hq⟩)
  | expr h => exact .expr (Expr.paired_iff.2 ⟨(Expr.paired_iff.1 h).1, hq⟩)
  | stmt h => exact .stmt (Stmt.paired_iff.2 ⟨(Stmt.paired_iff.1 h).1, hq⟩)
  | clause h => exact .clause (Clause.paired_iff.2 ⟨(Clause.paired_iff.1 h).1, hq⟩)

theorem flip (h : Paired S E P v w) :
    Paired (fun a b => S b a) (fun a b => E b a) (fun a b => P b a) w v := by
  have hs := h.slots.flip
  cases h with
  | scalar h => exact .scalar h
  | entity h => exact .entity h
  | list => exact .list hs
  | bounds h h' => exact .bounds h h'
  | «attribute» h h' => exact .attribute h h'
  | type h => exact .type (TypeTree.paired_iff.2 ⟨(TypeTree.paired_iff.1 h).1.symm, hs⟩)
  | expr h => exact .expr (Expr.paired_iff.2 ⟨(Expr.paired_iff.1 h).1.symm, hs⟩)
  | stmt h => exact .stmt (Stmt.paired_iff.2 ⟨(Stmt.paired_iff.1 h).1.symm, hs⟩)
  | clause h => exact .clause (Clause.paired_iff.2 ⟨(Clause.paired_iff.1 h).1.symm, hs⟩)

theorem comp {x : Value} {P' : Value → Value → Prop} (h : Paired S E P v w)
    (h' : Paired S' E' P' w x) :
    Paired (Relation.Comp S S') (Relation.Comp E E') (Relation.Comp P P') v x := by
  have hs := forall₂_comp h.slots h'.slots
  cases h with
  | scalar h => cases h' with | scalar h' => exact .scalar ⟨_, h, h'⟩
  | entity h => cases h' with | entity h' => exact .entity ⟨_, h, h'⟩
  | list => cases h' with | list => exact .list hs
  | bounds ha hb => cases h' with | bounds ha' hb' => exact .bounds ⟨_, ha, ha'⟩ ⟨_, hb, hb'⟩
  | «attribute» ha hb =>
    cases h' with | «attribute» ha' hb' => exact .attribute ⟨_, ha, ha'⟩ ⟨_, hb, hb'⟩
  | type h =>
    cases h' with
    | type h' =>
      have hi := (TypeTree.paired_iff.1 h).1.trans (TypeTree.paired_iff.1 h').1
      exact .type (TypeTree.paired_iff.2 ⟨hi, hs⟩)
  | expr h =>
    cases h' with
    | expr h' =>
      have hi := (Expr.paired_iff.1 h).1.trans (Expr.paired_iff.1 h').1
      exact .expr (Expr.paired_iff.2 ⟨hi, hs⟩)
  | stmt h =>
    cases h' with
    | stmt h' =>
      have hi := (Stmt.paired_iff.1 h).1.trans (Stmt.paired_iff.1 h').1
      exact .stmt (Stmt.paired_iff.2 ⟨hi, hs⟩)
  | clause h =>
    cases h' with
    | clause h' =>
      have hi := (Clause.paired_iff.1 h).1.trans (Clause.paired_iff.1 h').1
      exact .clause (Clause.paired_iff.2 ⟨hi, hs⟩)

theorem and {P' : Value → Value → Prop} (h : Paired S E P v w) (h' : Paired S' E' P' v w) :
    Paired (fun a b => S a b ∧ S' a b) (fun a b => E a b ∧ E' a b) (fun v w => P v w ∧ P' v w)
      v w := by
  have hs := forall₂_and h.slots h'.slots
  cases h with
  | scalar h => cases h' with | scalar h' => exact .scalar ⟨h, h'⟩
  | entity h => cases h' with | entity h' => exact .entity ⟨h, h'⟩
  | list => exact .list hs
  | bounds ha hb => cases h' with | bounds ha' hb' => exact .bounds ⟨ha, ha'⟩ ⟨hb, hb'⟩
  | «attribute» ha hb =>
    cases h' with | «attribute» ha' hb' => exact .attribute ⟨ha, ha'⟩ ⟨hb, hb'⟩
  | type h => exact .type (TypeTree.paired_iff.2 ⟨(TypeTree.paired_iff.1 h).1, hs⟩)
  | expr h => exact .expr (Expr.paired_iff.2 ⟨(Expr.paired_iff.1 h).1, hs⟩)
  | stmt h => exact .stmt (Stmt.paired_iff.2 ⟨(Stmt.paired_iff.1 h).1, hs⟩)
  | clause h => exact .clause (Clause.paired_iff.2 ⟨(Clause.paired_iff.1 h).1, hs⟩)

end Paired

/-- A relation that pairs what it relates, all the way down, implies `Q` if `Q` follows for a tree
from `Q` for its slots. -/
theorem paired_induction (hp : ∀ v w, P v w → Paired S E P v w)
    (hq : ∀ v w, P v w → Paired S E (fun v w => P v w ∧ Q v w) v w → Q v w) :
    P v w → Q v w := by
  induction v using slot_induction generalizing w with
  | slots v ih =>
    intro h
    have hpair := hp v w h
    exact hq v w h (hpair.relate (fun _ _ => id) (fun _ _ => id)
      (forall₂_of_mem hpair.slots fun u hu x hux => ⟨hux, ih u hu hux⟩))

section Equality

variable {eq : Comparison}

theorem same_symm (hs : ∀ a b, (eq.scalar a b).1 = true → (eq.scalar b a).1 = true)
    (he : ∀ a b, (eq.entity a b).1 = true → (eq.entity b a).1 = true) (h : v.same eq w = true) :
    w.same eq v = true := by
  refine paired_induction (Q := fun v w => w.same eq v = true) (fun _ _ => same_iff.1) ?_ h
  intro v w _ h
  refine same_iff.2 ?_
  exact h.flip.relate (fun _ _ => hs _ _) (fun _ _ => he _ _) (h.flip.slots.imp fun _ _ h => h.2)

theorem same_trans
    (hs : ∀ a b c, (eq.scalar a b).1 = true → (eq.scalar b c).1 = true → (eq.scalar a c).1 = true)
    (he : ∀ a b c, (eq.entity a b).1 = true → (eq.entity b c).1 = true → (eq.entity a c).1 = true)
    (h : v.same eq w = true) (h' : w.same eq x = true) : v.same eq x = true := by
  refine paired_induction (Q := fun v w => ∀ x, w.same eq x = true → v.same eq x = true)
    (fun _ _ => same_iff.1) ?_ h x h'
  intro v w _ h x hx
  have hc := h.comp (same_iff.1 hx)
  refine same_iff.2 (hc.relate (fun a c => ?_) (fun a c => ?_) (hc.slots.imp fun u y => ?_))
  · rintro ⟨b, hab, hbc⟩
    exact hs a b c hab hbc
  · rintro ⟨b, hab, hbc⟩
    exact he a b c hab hbc
  · rintro ⟨m, ⟨-, hm⟩, hy⟩
    exact hm y hy

end Equality

end Value

end

end Scribe
