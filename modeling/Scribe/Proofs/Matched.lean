import Scribe.Proofs.Congruence
import Scribe.Proofs.Equality
import Scribe.Render.Code

/-!
# Code of matched trees

Trees match when they are built in the same way from scalars that are the same, from any entities, and
from slots that `P` relates. A number may match one of another kind, so matched slots agree in what is
one thing for all numbers, and in what depends on the value alone. If `P` relates matched trees only,
and what is written of related slots that hold no code is related by a congruence `R`, then all code of
related slots is related by `R`: `Context.Related.code`. The induction is on the tree, for all the
roles that a slot can play at once (`Context.CodeRelated`).
-/

namespace Scribe

open Script

section

variable {α β : Type} {A : α → α → Prop} {B : β → β → Prop} {o o' : Option α}

theorem getD_related {a a' : α} (h : Option.Rel A o o') (ha : A a a') :
    A (o.getD a) (o'.getD a') := by
  cases h with
  | some h => exact h
  | none => exact ha

theorem map_related {f f' : α → β} (h : Option.Rel A o o') (hf : ∀ a a', A a a' → B (f a) (f' a')) :
    Option.Rel B (o.map f) (o'.map f') := by
  cases h with
  | some h => exact .some (hf _ _ h)
  | none => exact .none

end

namespace Value

/-- The text that a slot holds. -/
def text? : Value → Option String
  | .scalar (.text s) => some s
  | _ => none

theorem isText_eq (v : Value) (word : String) : v.isText word = (v.text? == some word) := by
  cases v with
  | scalar s => cases s <;> rfl
  | _ => rfl

theorem lookup?_eq (v : Value) (table : List (String × String)) :
    v.lookup? table = v.text?.bind (List.lookup · table) := by
  cases v with
  | scalar s => cases s <;> rfl
  | _ => rfl

theorem commentLines_eq (v : Value) : Context.commentLines v =
    v.text?.elim (.error .malformed) fun text => .ok (Text.lines text) := by
  cases v with
  | scalar s => cases s <;> rfl
  | _ => rfl

/-- Built in the same way, from scalars that are the same and from any entities. -/
abbrev Matched (P : Value → Value → Prop) : Value → Value → Prop :=
  Paired (fun a b => a.same b = true) (fun _ _ => True) P

/-- Values that are the same match, however entities are compared. -/
theorem matched_of_same {E : (a b : Entity) → Passed (a = b)} {v w : Value}
    (h : v.same ⟨Scalar.alike, E⟩ w = true) :
    Matched (fun v w => v.same ⟨Scalar.alike, E⟩ w = true) v w :=
  (same_iff.1 h).relate (fun _ _ => id) (fun _ _ _ => trivial) (same_iff.1 h).slots

namespace Matched

variable {P : Value → Value → Prop} {v w : Value} (h : Matched P v w)

include h

/-- Matched slots agree in what is one thing for all numbers, and for each of the other forms. -/
theorem isNull : v.isNull = w.isNull := by
  cases h with
  | scalar h =>
    refine Scalar.congr_of_same (f := fun s => isNull (.scalar s)) false (fun s m hs => ?_) h
    cases s <;> first | rfl | cases hs
  | _ => rfl

theorem text? : v.text? = w.text? := by
  cases h with
  | scalar h =>
    refine Scalar.congr_of_same (f := fun s => Value.text? (.scalar s)) none (fun s m hs => ?_) h
    cases s <;> first | rfl | cases hs
  | _ => rfl

theorem isSet : v.isSet = w.isSet := by
  cases h with
  | scalar h => exact Scalar.isSet_congr h
  | list h => cases h <;> rfl
  | _ => rfl

theorem isText (word : String) : v.isText word = w.isText word := by
  rw [isText_eq, isText_eq, h.text?]

theorem lookup? (table : List (String × String)) : v.lookup? table = w.lookup? table := by
  rw [lookup?_eq, lookup?_eq, h.text?]

theorem commentLines : Context.commentLines v = Context.commentLines w := by
  rw [commentLines_eq, commentLines_eq, h.text?]

theorem isLoose : v.isLoose = w.isLoose := by
  cases h with
  | expr h => cases h <;> rfl
  | _ => rfl

theorem isDeclaration : v.isDeclaration = w.isDeclaration := by
  cases h with
  | expr h => cases h <;> rfl
  | _ => rfl

theorem listed? : Option.Rel P v.listed? w.listed? := by
  cases h with
  | expr h =>
    cases h with
    | block h => exact .some h
    | _ => exact .none
  | clause h =>
    cases h with
    | order h => exact .some h
    | _ => exact .none
  | _ => exact .none

/-- Matched slots have related items, or neither has any. -/
theorem items (hs : ∀ s, P (.scalar s) (.scalar s)) :
    (∃ f, v.items = .error f ∧ w.items = .error f) ∨
      ∃ l l', v.items = .ok l ∧ w.items = .ok l' ∧ List.Forall₂ P l l' := by
  have hself {α : Type} (xs : List α) (f : α → Scalar) : List.Forall₂ P
      (xs.map fun x => .scalar (f x)) (xs.map fun x => .scalar (f x)) := by
    rw [List.forall₂_map_left_iff, List.forall₂_map_right_iff, List.forall₂_same]
    exact fun x _ => hs _
  have hnumber {s : Scalar} {m : Scalar.Magnitude} (hm : s.magnitude? = some m) :
      Value.items (.scalar s) = .error .illTyped := by
    cases s <;> first | rfl | cases hm
  cases h with
  | @scalar s _ he =>
    rcases Scalar.same_cases he with rfl | ⟨m, n, hm, hn, -⟩
    · cases s with
      | text s => exact .inr ⟨_, _, rfl, rfl, hself s.toList fun c => .text c.toString⟩
      | bytes b => exact .inr ⟨_, _, rfl, rfl, hself b fun n => .int n.toNat⟩
      | _ => exact .inl ⟨_, rfl, rfl⟩
    · exact .inl ⟨_, hnumber hm, hnumber hn⟩
  | list hl => exact .inr ⟨_, _, rfl, rfl, hl⟩
  | _ => exact .inl ⟨_, rfl, rfl⟩

variable {R : Script → Script → Prop} (hr : Congruence R) {a a' b b' : Script}

include hr

theorem optionally (ha : R a a') : R (v.optionally a) (w.optionally a') := by
  unfold Value.optionally
  rw [h.isNull]
  split_ifs
  · exact hr.empty
  · exact ha

theorem asTarget (ha : R a a') : R (v.asTarget a) (w.asTarget a') := by
  refine h.optionally hr (hr.before ?_ _)
  rw [h.isLoose]
  split_ifs
  · exact hr.parenthesized ha
  · exact ha

theorem asCondition (ha : R a a') : R (v.asCondition a) (w.asCondition a') := by
  have hgiven {s : Scalar} {x : Script} (hs : s ≠ .null) :
      (Value.scalar s).asCondition x = parenthesized x := by
    cases s <;> first | rfl | contradiction
  cases h with
  | scalar h =>
    obtain ⟨rfl, rfl⟩ | ⟨hv, hw⟩ := Scalar.null_cases h
    · exact hr.refl _
    · rw [hgiven hv, hgiven hw]
      exact hr.parenthesized ha
  | expr h =>
    cases h with
    | binary => exact ha
    | _ => exact hr.parenthesized ha
  | _ => exact hr.parenthesized ha

theorem asCallee (ha : R a a') : R (v.asCallee a) (w.asCallee a') := by
  cases h with
  | expr h =>
    cases h with
    | method => exact ha
    | _ => exact hr.parenthesized ha
  | _ => exact hr.parenthesized ha

theorem strays (hs : ∀ s, P (.scalar s) (.scalar s)) (item item' : Value → Script)
    (hi : ∀ {u x : Value}, P u x → R (item u) (item' x)) :
    List.Forall₂ R (v.strays item) (w.strays item') := by
  unfold Value.strays
  rcases h.items hs with ⟨f, hv, hw⟩ | ⟨l, l', hv, hw, hl⟩
  · rw [hv, hw]
    exact .cons (hr.fail f) .nil
  · rw [hv, hw]
    simp only [List.forall₂_map_left_iff, List.forall₂_map_right_iff]
    exact hl.imp fun _ _ => hi

end Matched

end Value

namespace Context

/-- Two ways of rendering that write related scripts for related slots which hold no code. -/
structure Related (c c' : Context) (P : Value → Value → Prop) (R : Script → Script → Prop) : Prop
    extends Congruence R where
  matched {v w : Value} : P v w → Value.Matched P v w
  scalar (s : Scalar) : P (.scalar s) (.scalar s)
  unsupported {v w : Value} (category : Category) : P v w →
    R (Script.fail (.unsupported category (v.found c.program)))
      (Script.fail (.unsupported category (w.found c'.program)))
  unknown {v w : Value} (category : Category) : P v w →
    R (Script.fail (v.unknown category)) (Script.fail (w.unknown category))
  same {v v' w w' : Value} : P v v' → P w w' → c.program.same v w = c'.program.same v' w'
  literal {v v' k k' : Value} : P (.expr (.literal v k)) (.expr (.literal v' k')) →
    R (c.expr (.literal v k)) (c'.expr (.literal v' k'))
  snippet {v w : Value} : P v w → R (content v) (content w)
  jump {v w : Value} : P v w → R (declaration v none) (declaration w none)
  label {v w : Value} : P v w → R (given v.asName fun name => Script.step (.label name))
    (given w.asName fun name => Script.step (.label name))
  sized {v w : Value} : P v w → List.Forall₂ R (c.exprItems v) (c'.exprItems w) →
    R (if v.areZero then text "[]" else between "Array(" ")" (commaSeparated (c.exprItems v)))
      (if w.areZero then text "[]" else between "Array(" ")" (commaSeparated (c'.exprItems w)))
  typeSlot {v w : Value} : P v w → R (c.program.typeSlot v) (c'.program.typeSlot w)
  typeName {v w : Value} : P v w → R (c.program.typeName v) (c'.program.typeName w)
  ownField {v w : Value} : P v w → R (c.program.memberOf v ++ c.program.fieldName v)
    (c'.program.memberOf w ++ c'.program.fieldName w)
  ownMethod {v w : Value} : P v w → R (c.program.memberOf v ++ c.program.methodName v)
    (c'.program.memberOf w ++ c'.program.methodName w)
  fieldName {v w : Value} : P v w → R (c.program.fieldName v) (c'.program.fieldName w)
  methodName {v w : Value} : P v w → R (c.program.methodName v) (c'.program.methodName w)
  memberName {v w : Value} : P v w → R (c.program.memberName v) (c'.program.memberName w)
  eventName {v w : Value} : P v w → R (c.program.eventName v) (c'.program.eventName w)
  argumentUse {v w : Value} : P v w → R (c.program.argumentUse v) (c'.program.argumentUse w)
  variableUse {v w : Value} : P v w → R (c.program.variableUse v) (c'.program.variableUse w)
  variableDeclaration {v w : Value} : P v w →
    R (c.program.variableDeclaration v) (c'.program.variableDeclaration w)
  parameterList {v w : Value} : P v w →
    R (c.program.parameterList v) (c'.program.parameterList w)
  createdType {k k' v w : Value} : P k k' → P v w →
    R (c.program.createdType k v) (c'.program.createdType k' w)
  read {v w : Value} {s s' : Script} {l l' : List Script} : P v w → R s s' → List.Forall₂ R l l' →
    R (c.read ⟨v, s, l⟩) (c'.read ⟨w, s', l'⟩)
  write {v w : Value} {s s' : Script} {l l' : List Script} {x x' : Script} : P v w → R s s' →
    List.Forall₂ R l l' → R x x' → R (c.write ⟨v, s, l⟩ x) (c'.write ⟨w, s', l'⟩ x')
  functionBody {v w : Value} : P v w → R (v.optionally (c.stmtSlot v)) (w.optionally (c'.stmtSlot w)) →
    R (c.functionBody v (v.optionally (c.stmtSlot v)))
      (c'.functionBody w (w.optionally (c'.stmtSlot w)))

/-- Related properties with related targets and arguments. -/
structure Access.Related (P : Value → Value → Prop) (R : Script → Script → Prop) (a b : Access) :
    Prop where
  property : P a.property b.property
  target : R a.target b.target
  arguments : List.Forall₂ R a.arguments b.arguments

/-- Related code, in each role that a slot can play. -/
structure CodeRelated (c c' : Context) (P : Value → Value → Prop) (R : Script → Script → Prop)
    (v w : Value) : Prop where
  related : P v w
  exprSlot : R (c.exprSlot v) (c'.exprSlot w)
  exprItems : List.Forall₂ R (c.exprItems v) (c'.exprItems w)
  property? : Option.Rel (Access.Related P R) (c.property? v) (c'.property? w)
  access? : Option.Rel (Access.Related P R) (c.access? v) (c'.access? w)
  items? : Option.Rel (List.Forall₂ R) (c.items? v) (c'.items? w)
  pointee? : Option.Rel R (c.pointee? v) (c'.pointee? w)
  counter? {t t' : Value} {s s' : Script} : P t t' → R s s' →
    Option.Rel R (c.counter? t s v) (c'.counter? t' s' w)
  querySource : R (c.querySource v) (c'.querySource w)
  queryClause : R (c.queryClause v) (c'.queryClause w)
  queryClauseItems : List.Forall₂ R (c.queryClauseItems v) (c'.queryClauseItems w)
  ordering : R (c.ordering v) (c'.ordering w)
  orderingItems : List.Forall₂ R (c.orderingItems v) (c'.orderingItems w)
  queryOperation : R (c.queryOperation v) (c'.queryOperation w)
  queryBody : R (c.queryBody v) (c'.queryBody w)
  queryContinuation : R (c.queryContinuation v) (c'.queryContinuation w)
  stmtSlot : R (c.stmtSlot v) (c'.stmtSlot w)
  stmtItems : List.Forall₂ R (c.stmtItems v) (c'.stmtItems w)
  catchClause : R (c.catchClause v) (c'.catchClause w)
  catchItems : List.Forall₂ R (c.catchItems v) (c'.catchItems w)
  caseLabels {t t' : Value} {s s' : Script} : P t t' → R s s' →
    R (c.caseLabels t s v) (c'.caseLabels t' s' w)
  switchCase {t t' : Value} : P t t' → R (c.switchCase t v) (c'.switchCase t' w)
  switchItems {t t' : Value} : P t t' →
    List.Forall₂ R (c.switchItems t v) (c'.switchItems t' w)

namespace Related

variable {c c' : Context} {P : Value → Value → Prop} {R : Script → Script → Prop}
  (hr : Related c c' P R) {v w : Value}

include hr

theorem unary {a a' : Script} (h : P v w) (ha : R a a') : R (unary v a) (unary w a') := by
  unfold Script.unary leadingSymbol? trailingSymbol?
  rw [(hr.matched h).lookup?, (hr.matched h).lookup?]
  split
  · exact hr.after _ ha
  · exact hr.before ha _
  · exact hr.unknown _ h

theorem binary {a a' b b' : Script} (h : P v w) (ha : R a a') (hb : R b b') :
    R (binary v a b) (binary w a' b') := by
  unfold Script.binary binarySymbol?
  rw [(hr.matched h).lookup?]
  split
  · exact hr.parenthesized (hr.append (hr.before ha _) hb)
  · exact hr.unknown _ h

theorem strays (item item' : Value → Script) (h : P v w)
    (hi : ∀ {u x : Value}, P u x → R (item u) (item' x)) :
    List.Forall₂ R (v.strays item) (w.strays item') :=
  (hr.matched h).strays hr.toCongruence hr.scalar item item' hi

theorem lambdaParameters (h : P v w) :
    R (given v.items fun l => commaSeparated (l.map c.program.variableDeclaration))
      (given w.items fun l => commaSeparated (l.map c'.program.variableDeclaration)) := by
  rcases (hr.matched h).items hr.scalar with ⟨f, hv, hw⟩ | ⟨l, l', hv, hw, hl⟩
  · rw [hv, hw]
    exact hr.fail f
  · rw [hv, hw]
    refine hr.commaSeparated ?_
    rw [List.forall₂_map_left_iff, List.forall₂_map_right_iff]
    exact hl.imp fun _ _ => hr.variableDeclaration

theorem assignedVariable? (h : P v w) : Option.Rel P v.assignedVariable? w.assignedVariable? := by
  cases hr.matched h with
  | expr he =>
    cases he with
    | assign ht =>
      cases hr.matched ht with
      | expr hb =>
        cases hb with
        | declare hb | «variable» hb => exact .some hb
        | _ => exact .none
      | _ => exact .none
    | _ => exact .none
  | _ => exact .none

theorem unlessEmpty {a a' : Script} (h : P v w) (ha : R a a') :
    R (v.unlessEmpty a) (w.unlessEmpty a') := by
  cases hr.matched h with
  | stmt hb =>
    cases hb with
    | block hs =>
      show R (if _ then a else ∅) (if _ then a' else ∅)
      rw [(hr.matched hs).isSet]
      split_ifs
      · exact ha
      · exact hr.empty
    | _ => exact hr.fail _
  | _ => exact hr.fail _

theorem asTarget (h : CodeRelated c c' P R v w) :
    R (v.asTarget (c.exprSlot v)) (w.asTarget (c'.exprSlot w)) :=
  (hr.matched h.related).asTarget hr.toCongruence h.exprSlot

/-! ### Expressions -/

theorem assignment {a b : Option Access} {s s' x x' : Script}
    (ha : Option.Rel (Access.Related P R) a b) (hs : R s s') (hx : R x x') :
    R (c.assignment a s x) (c'.assignment b s' x') := by
  cases ha with
  | some ha => exact hr.write ha.property ha.target ha.arguments hx
  | none => exact hr.append (hr.before hs _) hx

theorem newArray {d e : Value} {o o' : Option (List Script)} (h : P v w) (hd : P d e)
    (ho : Option.Rel (List.Forall₂ R) o o')
    (hl : List.Forall₂ R (c.exprItems d) (c'.exprItems e)) :
    R (newArray v d.areZero o (c.exprItems d)) (newArray w e.areZero o' (c'.exprItems e)) := by
  cases ho with
  | some ho => exact hr.block ho
  | none =>
    unfold Context.newArray
    rw [(hr.matched h).isNull]
    exact related_ite (hr.fail _) (hr.sized hd hl)

theorem newMembers {o o' : Option (List Script)} (h : P v w)
    (ho : Option.Rel (List.Forall₂ R) o o') : R (newMembers v o) (newMembers w o') := by
  have hlisted := (hr.matched h).listed?
  have hempty : R (if v.isNull then ∅ else fail .malformed)
      (if w.isNull then ∅ else fail .malformed) := by
    rw [(hr.matched h).isNull]
    exact hr.refl _
  unfold Context.newMembers
  generalize v.listed? = a at hlisted ⊢
  generalize w.listed? = b at hlisted ⊢
  cases hlisted with
  | none => exact hempty
  | @some i j hi =>
    cases ho with
    | none => exact hempty
    | some ho =>
      show R (if i.isSet then _ else ∅) (if j.isSet then _ else ∅)
      rw [(hr.matched hi).isSet]
      split_ifs
      · exact hr.after _ (hr.block ho)
      · exact hr.empty

theorem counterCall? {t t' l l' o o' : Value} (ht : P t t') (hl : P l l') (ho : P o o') :
    c.counterCall? t l o = c'.counterCall? t' l' o' := by
  unfold Context.counterCall?
  rw [hr.same hl ht, (hr.matched ho).isText, (hr.matched ho).isText]

theorem expr {e e' : Expr} (hself : P (.expr e) (.expr e'))
    (h : Expr.Paired (CodeRelated c c' P R) e e') : R (c.expr e) (c'.expr e') := by
  cases h with
  | bare => exact hr.fail _
  | literal => exact hr.literal hself
  | assign ht hv =>
    refine getD_related (hv.counter? ht.related ht.exprSlot) ?_
    exact hr.assignment ht.access? ht.exprSlot hv.exprSlot
  | typeOf ht | sizeOf ht | genericDefault ht => exact hr.between _ _ (hr.typeSlot ht.related)
  | fieldOf hf ht =>
    refine hr.between _ _ (hr.append (hr.ownField hf.related) ?_)
    exact (hr.matched ht.related).optionally hr.toCongruence (hr.after _ (hr.typeSlot ht.related))
  | methodOf hm ht =>
    refine hr.between _ _ (hr.append (hr.ownMethod hm.related) ?_)
    exact (hr.matched ht.related).optionally hr.toCongruence (hr.after _ (hr.typeSlot ht.related))
  | initMember hm hv => exact hr.append (hr.before (hr.memberName hm.related) _) hv.exprSlot
  | typeName ht => exact hr.typeName ht.related
  | field hm ht => exact hr.append (hr.asTarget ht) (hr.fieldName hm.related)
  | event hm ht => exact hr.append (hr.asTarget ht) (hr.eventName hm.related)
  | method hm ht => exact hr.append (hr.asTarget ht) (hr.methodName hm.related)
  | property hp ht => exact hr.read hp.related (hr.asTarget ht) .nil
  | argumentList | base | this => exact hr.refl _
  | stackAllocate ht hs =>
    exact hr.append (hr.after _ (hr.typeSlot ht.related)) (hr.bracketed hs.exprSlot)
  | block hi => exact hr.block hi.exprItems
  | arrayCreate ht hd hi => exact hr.newArray hi.related hd.related hi.items? hd.exprItems
  | unary ho hx => exact hr.unary ho.related hx.exprSlot
  | binary hl ho hx => exact hr.binary ho.related hl.exprSlot hx.exprSlot
  | tryCast hx ht | canCast hx ht =>
    exact hr.parenthesized (hr.append (hr.before hx.exprSlot _) (hr.typeSlot ht.related))
  | cast hx => exact hx.exprSlot
  | condition hc hy hn =>
    exact hr.parenthesized (hr.append (hr.before (hr.append (hr.before hc.exprSlot _) hy.exprSlot) _)
      hn.exprSlot)
  | coalesce hs hf =>
    refine hr.before (hr.append (hr.before (hr.append (hr.before ?_ _) ?_) _) hf.exprSlot) _
    · exact hr.after _ hs.exprSlot
    · exact hs.exprSlot
  | delegateCreate ht hm hx =>
    refine hr.append (hr.typeSlot ht.related) (hr.between _ _ (hr.append ?_ (hr.methodName hm.related)))
    exact (hr.matched hx.related).optionally hr.toCongruence (hr.before hx.exprSlot _)
  | function hp hb =>
    have hbody := (hr.matched hb.related).optionally hr.toCongruence hb.stmtSlot
    refine hr.before (hr.append (hr.before (hr.before (hr.after _ ?_) _) _) (hr.indented ?_)) _
    · exact hr.parameterList hp.related
    · exact hr.functionBody hb.related hbody
  | lambda hp hb =>
    refine hr.before (hr.append (hr.before (hr.after _ ?_) _) hb.exprSlot) _
    exact hr.lambdaParameters hp.related
  | argument hp => exact hr.argumentUse hp.related
  | declare hb | «variable» hb => exact hr.variableUse hb.related
  | propertyIndexer ht hi =>
    refine getD_related ?_ (hr.fail _)
    exact map_related ht.property? fun _ _ ha => hr.read ha.property ha.target hi.exprItems
  | arrayIndexer ht hi =>
    refine hr.append ht.exprSlot (hr.concat ?_)
    rw [List.forall₂_map_left_iff, List.forall₂_map_right_iff]
    exact hi.exprItems.imp fun _ _ => hr.bracketed
  | invoke hm ha =>
    exact hr.append ((hr.matched hm.related).asCallee hr.toCongruence hm.exprSlot)
      (hr.parenthesized (hr.commaSeparated ha.exprItems))
  | delegateInvoke ht ha =>
    exact hr.append ht.exprSlot (hr.parenthesized (hr.commaSeparated ha.exprItems))
  | objectCreate ht hk ha hi =>
    refine hr.append (hr.append (hr.after _ (hr.createdType hk.related ht.related)) ?_) ?_
    · exact hr.between _ _ (hr.commaSeparated ha.exprItems)
    · exact hr.newMembers hi.related hi.items?
  | addressOf hx | addressReference hx | addressOut hx => exact hr.bracketed hx.exprSlot
  | dereference hx =>
    exact getD_related hx.pointee? hx.exprSlot
  | typeOfTyped hx | createTyped hx => exact hr.between _ _ hx.exprSlot
  | valueOfTyped hx ht =>
    refine hr.between _ _ (hr.append hx.exprSlot ?_)
    exact (hr.matched ht.related).optionally hr.toCongruence (hr.after _ (hr.typeSlot ht.related))
  | snippet hs => exact hr.snippet hs.related
  | query hs hb => exact hr.parenthesized (hr.append hs.querySource (hr.indented hb.queryBody))

/-! ### Statements -/

theorem acquire {s s' : Script} (h : P v w) (hs : R s s') : R (acquire v s) (acquire w s') := by
  have hb := hr.assignedVariable? h
  unfold Context.acquire
  generalize v.assignedVariable? = a at hb ⊢
  generalize w.assignedVariable? = b at hb ⊢
  cases hb with
  | some => exact hr.simple hs
  | none => exact hr.empty

theorem release {s s' : Script} (h : P v w) (hs : R s s') :
    R (c.release v s) (c'.release w s') := by
  have hb := hr.assignedVariable? h
  have ht := (hr.matched h).asTarget hr.toCongruence hs
  unfold Context.release
  generalize v.assignedVariable? = a at hb ⊢
  generalize w.assignedVariable? = b at hb ⊢
  refine hr.before (hr.before ?_ _) _
  cases hb with
  | some hb => exact hr.before (hr.variableUse hb) _
  | none => exact ht

theorem catchHead (h : P v w) : R (c.catchHead v) (c'.catchHead w) := by
  unfold Context.catchHead
  rw [(hr.matched h).isNull]
  refine hr.after _ (hr.between _ _ ?_)
  split_ifs
  · exact hr.refl _
  · exact hr.variableDeclaration h

theorem optionalStmt (h : CodeRelated c c' P R v w) :
    R (v.optionally (c.stmtSlot v)) (w.optionally (c'.stmtSlot w)) :=
  (hr.matched h.related).optionally hr.toCongruence h.stmtSlot

theorem bracedStmt (h : CodeRelated c c' P R v w) :
    R (braced (v.optionally (c.stmtSlot v))) (braced (w.optionally (c'.stmtSlot w))) :=
  hr.braced (hr.optionalStmt h)

theorem condition (h : CodeRelated c c' P R v w) :
    R (v.asCondition (c.exprSlot v)) (w.asCondition (c'.exprSlot w)) :=
  (hr.matched h.related).asCondition hr.toCongruence h.exprSlot

theorem stmt {s s' : Stmt} (h : Stmt.Paired (CodeRelated c c' P R) s s') :
    R (c.stmt s) (c'.stmt s') := by
  cases h with
  | bare => exact hr.fail _
  | block hs => exact hr.concat hs.stmtItems
  | expression he =>
    rw [Context.stmt, Context.stmt, (hr.matched he.related).isDeclaration]
    split_ifs
    · exact hr.empty
    · exact hr.simple he.exprSlot
  | goto hl => exact hr.simple (hr.after _ (hr.jump hl.related))
  | labeled hl hs => exact hr.append (hr.after _ (hr.label hl.related)) (hr.optionalStmt hs)
  | condition hc hy hn =>
    refine hr.append (hr.append (hr.after _ (hr.condition hc)) (hr.bracedStmt hy)) ?_
    refine (hr.matched hn.related).optionally hr.toCongruence (hr.unlessEmpty hn.related ?_)
    exact hr.after _ (hr.braced hn.stmtSlot)
  | «return» hv =>
    refine hr.simple (hr.after _ ?_)
    exact (hr.matched hv.related).optionally hr.toCongruence (hr.after _ hv.exprSlot)
  | «for» hs hc hi hb =>
    have hcond := (hr.matched hc.related).optionally hr.toCongruence hc.exprSlot
    refine hr.append (hr.before (hr.before (hr.append (hr.before (hr.before (hr.append (hr.before
      ?_ _) hcond) _) _) (hr.optionalStmt hi)) _) _) (hr.bracedStmt hb)
    exact hr.after _ (hr.optionalStmt hs)
  | forEach hv hs hb | fixed hv hs hb =>
    refine hr.append (hr.before (hr.append (hr.before (hr.after _ ?_) _) hs.exprSlot) _)
      (hr.bracedStmt hb)
    exact hr.variableUse hv.related
  | «using» hx hb =>
    refine hr.before (hr.before (hr.append (hr.before (hr.before (hr.before (hr.append (hr.before
      (hr.before ?_ _) _) (hr.bracedStmt hb)) _) _) _) (hr.indented ?_)) _) _
    · exact hr.acquire hx.related hx.exprSlot
    · exact hr.release hx.related hx.exprSlot
  | «while» hc hb => exact hr.append (hr.after _ (hr.condition hc)) (hr.bracedStmt hb)
  | «do» hc hb =>
    exact hr.simple (hr.append (hr.before (hr.after _ (hr.bracedStmt hb)) _) (hr.condition hc))
  | «try» hb hk hf hl =>
    refine hr.before (hr.append (hr.append (hr.append (hr.after _ (hr.bracedStmt hb))
      (hr.concat hk.catchItems)) (hr.unlessEmpty hf.related ?_)) (hr.unlessEmpty hl.related ?_)) _
    · exact hr.after _ (hr.braced (hr.before hf.stmtSlot _))
    · exact hr.after _ (hr.braced hl.stmtSlot)
  | throw hv =>
    rw [Context.stmt, Context.stmt, (hr.matched hv.related).isNull]
    refine hr.simple (hr.after _ ?_)
    split_ifs
    · exact hr.refl _
    · exact hv.exprSlot
  | attach he hl | detach he hl => exact hr.simple (hr.append (hr.before he.exprSlot _) hl.exprSlot)
  | switch hs hc =>
    refine hr.before (hr.before (hr.append (hr.before (hr.before (hr.after _ (hr.condition hs)) _) _)
      (hr.concat ?_)) _) _
    exact hc.switchItems hs.related
  | «break» | «continue» | debugBreak => exact hr.refl _
  | memoryCopy ha hb hc | memoryFill ha hb hc =>
    refine hr.simple (hr.between _ _ (hr.commaSeparated ?_))
    exact .cons ha.exprSlot (.cons hb.exprSlot (.cons hc.exprSlot .nil))
  | lock hs hb => exact hr.append (hr.after _ (hr.condition hs)) (hr.bracedStmt hb)
  | comment ht =>
    rw [Context.stmt, Context.stmt, (hr.matched ht.related).commentLines]
    exact hr.refl _

/-! ### All roles of a slot -/

omit hr in
theorem items_map {l l' : List Value} {f f' : Value → Script}
    (hl : List.Forall₂ (CodeRelated c c' P R) l l')
    (hf : ∀ v w, CodeRelated c c' P R v w → R (f v) (f' w)) :
    List.Forall₂ R (l.map f) (l'.map f') := by
  rw [List.forall₂_map_left_iff, List.forall₂_map_right_iff]
  exact hl.imp hf

theorem unsupportedItems (h : P v w) (category : Category) :
    List.Forall₂ R (v.strays fun item => fail (.unsupported category (item.found c.program)))
      (w.strays fun item => fail (.unsupported category (item.found c'.program))) :=
  hr.strays _ _ h fun hi => hr.unsupported category hi

/-- A variable that is bound to a value or a source. -/
theorem binding (opening middle : String) {a b i j : Value} (hb : CodeRelated c c' P R a i)
    (hs : CodeRelated c c' P R b j) :
    R (text opening ++ c.program.variableDeclaration a ++ text middle ++ c.exprSlot b)
      (text opening ++ c'.program.variableDeclaration i ++ text middle ++ c'.exprSlot j) :=
  hr.append (hr.before (hr.after _ (hr.variableDeclaration hb.related)) _) hs.exprSlot

theorem continuation {a b i j : Value} (hb : CodeRelated c c' P R a i)
    (hq : CodeRelated c c' P R b j) :
    R (text " into " ++ c.program.variableDeclaration a ++ c.queryBody b)
      (text " into " ++ c'.program.variableDeclaration i ++ c'.queryBody j) :=
  hr.append (hr.after _ (hr.variableDeclaration hb.related)) hq.queryBody

section

variable (h : Value.Matched (CodeRelated c c' P R) v w)

include h

theorem property? : Option.Rel (Access.Related P R) (c.property? v) (c'.property? w) := by
  cases h with
  | expr h =>
    cases h with
    | property hm ht => exact .some ⟨hm.related, hr.asTarget ht, .nil⟩
    | _ => exact .none
  | _ => exact .none

theorem access? : Option.Rel (Access.Related P R) (c.access? v) (c'.access? w) := by
  cases h with
  | expr h =>
    cases h with
    | property hm ht => exact .some ⟨hm.related, hr.asTarget ht, .nil⟩
    | propertyIndexer ht hi =>
      exact map_related ht.property? fun _ _ ha => ⟨ha.property, ha.target, hi.exprItems⟩
    | _ => exact .none
  | _ => exact .none

omit hr in
theorem items? : Option.Rel (List.Forall₂ R) (c.items? v) (c'.items? w) := by
  cases h with
  | expr h =>
    cases h with
    | block hi => exact .some hi.exprItems
    | _ => exact .none
  | clause h =>
    cases h with
    | order hi => exact .some hi.exprItems
    | _ => exact .none
  | _ => exact .none

omit hr in
theorem pointee? : Option.Rel R (c.pointee? v) (c'.pointee? w) := by
  cases h with
  | expr h =>
    cases h with
    | addressOf hx => exact .some hx.exprSlot
    | _ => exact .none
  | _ => exact .none

theorem counter? {t t' : Value} {s s' : Script} (ht : P t t') (hs : R s s') :
    Option.Rel R (c.counter? t s v) (c'.counter? t' s' w) := by
  cases h with
  | expr h =>
    cases h with
    | binary hl ho hx =>
      rw [Context.counter?, Context.counter?, hr.counterCall? ht hl.related ho.related]
      cases c'.counterCall? t' _ _ with
      | none => exact .none
      | some call =>
        exact .some (hr.before (hr.append (hr.before (hr.after _ hs) _) hx.exprSlot) _)
    | _ => exact .none
  | _ => exact .none

theorem querySource : R (c.querySource v) (c'.querySource w) := by
  cases h with
  | clause h =>
    cases h with
    | «from» hb hs | «let» hb hs => exact hr.binding _ _ hb hs
    | _ => exact hr.append (hr.step _) (hr.fail .malformed)
  | stmt h =>
    cases h with
    | forEach hb hs | fixed hb hs => exact hr.binding _ _ hb hs
    | _ => exact hr.append (hr.step _) (hr.fail .malformed)
  | _ => exact hr.append (hr.step _) (hr.fail .malformed)

theorem ordering : R (c.ordering v) (c'.ordering w) := by
  cases h with
  | clause h =>
    cases h with
    | ordering hk hd =>
      rw [Context.ordering, Context.ordering, (hr.matched hd.related).isText]
      exact hr.before hk.exprSlot _
    | _ => exact hr.fail .malformed
  | _ => exact hr.fail .malformed

theorem queryBody : R (c.queryBody v) (c'.queryBody w) := by
  cases h with
  | clause h =>
    cases h with
    | queryBody ho hc hk =>
      exact hr.append (hr.append (hr.before (hr.concat hc.queryClauseItems) _) ho.queryOperation)
        hk.queryContinuation
    | _ => exact hr.fail .malformed
  | _ => exact hr.fail .malformed

theorem queryContinuation : R (c.queryContinuation v) (c'.queryContinuation w) := by
  cases h with
  | scalar he =>
    have hgiven (c : Context) {s : Scalar} (hs : s ≠ .null) :
        c.queryContinuation (.scalar s) = text " into " ++ fail .malformed := by
      cases s <;> first | rfl | contradiction
    obtain ⟨rfl, rfl⟩ | ⟨hv, hw⟩ := Scalar.null_cases he
    · exact hr.empty
    · rw [hgiven c hv, hgiven c' hw]
      exact hr.refl _
  | clause h =>
    cases h with
    | continuation hb hq | «catch» hq hb => exact hr.continuation hb hq
    | _ => exact hr.append (hr.step _) (hr.fail .malformed)
  | stmt h =>
    cases h with
    | forEach hb _ hq | fixed hb _ hq => exact hr.continuation hb hq
    | _ => exact hr.append (hr.step _) (hr.fail .malformed)
  | _ => exact hr.append (hr.step _) (hr.fail .malformed)

theorem catchClause : R (c.catchClause v) (c'.catchClause w) := by
  cases h with
  | clause h =>
    cases h with
    | «catch» hb hv hc =>
      rw [Context.catchClause, Context.catchClause, (hr.matched hc.related).isNull]
      refine hr.append (hr.catchHead hv.related) ?_
      split_ifs
      · exact hr.bracedStmt hb
      · refine hr.before (hr.after _ (hr.indented (hr.before ?_ _))) _
        exact hr.append (hr.after _ (hr.condition hc)) (hr.bracedStmt hb)
    | _ => exact hr.append (hr.append (hr.step _) (hr.step _)) (hr.fail .malformed)
  | _ => exact hr.append (hr.append (hr.step _) (hr.step _)) (hr.fail .malformed)

theorem caseLabels {t t' : Value} {s s' : Script} (ht : P t t') (hs : R s s') :
    R (c.caseLabels t s v) (c'.caseLabels t' s' w) := by
  cases h with
  | expr h =>
    cases h with
    | binary hl ho hx =>
      rw [Context.caseLabels, Context.caseLabels, Context.comparesSubject, Context.comparesSubject,
        (hr.matched ho.related).isText, (hr.matched ho.related).isText,
        (hr.matched ho.related).isText, hr.same hl.related ht]
      split_ifs
      · exact hr.append (hl.caseLabels ht hl.exprSlot) (hx.caseLabels ht hx.exprSlot)
      · exact hr.caseLabel hx.exprSlot
      · exact hr.caseLabel hs
    | _ => exact hr.caseLabel hs
  | _ => exact hr.caseLabel hs

end

section

variable (hp : P v w) (h : Value.Matched (CodeRelated c c' P R) v w)

include hp h

theorem exprSlot : R (c.exprSlot v) (c'.exprSlot w) := by
  cases h with
  | scalar he =>
    have hgiven (c : Context) {s : Scalar} (hs : s ≠ .null) : c.exprSlot (.scalar s) =
        fail (.unsupported .expression ((Value.scalar s).found c.program)) := by
      cases s <;> first | rfl | contradiction
    obtain ⟨rfl, rfl⟩ | ⟨hv, hw⟩ := Scalar.null_cases he
    · exact hr.fail .missingExpression
    · rw [hgiven c hv, hgiven c' hw]
      exact hr.unsupported .expression hp
  | expr h => exact hr.delayed (hr.expr hp h)
  | _ => exact hr.unsupported .expression hp

theorem exprItems : List.Forall₂ R (c.exprItems v) (c'.exprItems w) := by
  cases h with
  | list h =>
    rw [Context.exprItems, Context.exprItems, exprSlots_eq, exprSlots_eq]
    exact items_map h fun _ _ h => h.exprSlot
  | _ => exact hr.unsupportedItems hp .expression

theorem stmtSlot : R (c.stmtSlot v) (c'.stmtSlot w) := by
  cases h with
  | scalar he =>
    have hgiven (c : Context) {s : Scalar} (hs : s ≠ .null) : c.stmtSlot (.scalar s) =
        fail (.unsupported .statement ((Value.scalar s).found c.program)) := by
      cases s <;> first | rfl | contradiction
    obtain ⟨rfl, rfl⟩ | ⟨hv, hw⟩ := Scalar.null_cases he
    · exact hr.fail .missingStatement
    · rw [hgiven c hv, hgiven c' hw]
      exact hr.unsupported .statement hp
  | stmt h => exact hr.delayed (hr.stmt h)
  | _ => exact hr.unsupported .statement hp

theorem queryClause : R (c.queryClause v) (c'.queryClause w) := by
  cases h with
  | clause h =>
    cases h with
    | «from» hb hs => exact hr.binding _ _ hb hs
    | «where» hc => exact hr.after _ hc.exprSlot
    | «let» hb hv => exact hr.binding _ _ hb hv
    | join hb hs ho he hi =>
      refine hr.append (hr.append (hr.before (hr.append (hr.before (hr.binding _ _ hb hs) _)
        ho.exprSlot) _) he.exprSlot) ?_
      exact (hr.matched hi.related).optionally hr.toCongruence
        (hr.after _ (hr.variableDeclaration hi.related))
    | order ho => exact hr.after _ (hr.commaSeparated ho.orderingItems)
    | _ => exact hr.unsupported _ hp
  | _ => exact hr.unsupported _ hp

theorem queryOperation : R (c.queryOperation v) (c'.queryOperation w) := by
  cases h with
  | clause h =>
    cases h with
    | select hv => exact hr.after _ hv.exprSlot
    | group hi hk => exact hr.append (hr.before (hr.after _ hi.exprSlot) _) hk.exprSlot
    | _ => exact hr.unsupported _ hp
  | _ => exact hr.unsupported _ hp

theorem switchCase {t t' : Value} (ht : P t t') : R (c.switchCase t v) (c'.switchCase t' w) := by
  cases h with
  | clause h =>
    cases h with
    | case hb hc =>
      refine hr.append (hc.caseLabels ht hc.exprSlot) (hr.indented (hr.body ?_))
      exact hr.optionalStmt hb
    | default hb => exact hr.after _ (hr.indented (hr.body (hr.optionalStmt hb)))
    | _ => exact hr.unsupported _ hp
  | _ => exact hr.unsupported _ hp

theorem queryClauseItems :
    List.Forall₂ R (c.queryClauseItems v) (c'.queryClauseItems w) := by
  cases h with
  | list h =>
    rw [Context.queryClauseItems, Context.queryClauseItems, queryClauses_eq, queryClauses_eq]
    exact items_map h fun _ _ h => hr.after _ h.queryClause
  | _ =>
    exact hr.strays
      (fun item => lineBreak ++ fail (.unsupported .queryClause (item.found c.program)))
      (fun item => lineBreak ++ fail (.unsupported .queryClause (item.found c'.program))) hp
      fun hi => hr.after _ (hr.unsupported .queryClause hi)

theorem orderingItems : List.Forall₂ R (c.orderingItems v) (c'.orderingItems w) := by
  cases h with
  | list h =>
    rw [Context.orderingItems, Context.orderingItems, orderings_eq, orderings_eq]
    exact items_map h fun _ _ h => h.ordering
  | _ => exact hr.strays (fun _ => fail .malformed) (fun _ => fail .malformed) hp fun _ => hr.fail _

theorem stmtItems : List.Forall₂ R (c.stmtItems v) (c'.stmtItems w) := by
  cases h with
  | list h =>
    rw [Context.stmtItems, Context.stmtItems, stmtSlots_eq, stmtSlots_eq]
    exact items_map h fun _ _ h => h.stmtSlot
  | _ => exact hr.unsupportedItems hp .statement

theorem catchItems : List.Forall₂ R (c.catchItems v) (c'.catchItems w) := by
  cases h with
  | list h =>
    rw [Context.catchItems, Context.catchItems, catchClauses_eq, catchClauses_eq]
    exact items_map h fun _ _ h => h.catchClause
  | _ =>
    exact hr.strays (fun _ => lineBreak ++ text "catch (" ++ fail .malformed)
      (fun _ => lineBreak ++ text "catch (" ++ fail .malformed) hp fun _ => hr.refl _

theorem switchItems {t t' : Value} (ht : P t t') :
    List.Forall₂ R (c.switchItems t v) (c'.switchItems t' w) := by
  cases h with
  | list h =>
    rw [Context.switchItems, Context.switchItems, switchCases_eq, switchCases_eq]
    exact items_map h fun _ _ h => h.switchCase ht
  | _ => exact hr.unsupportedItems hp .switchCase

end

/-- All code of related slots is related, in whatever role. -/
theorem code (h : P v w) : CodeRelated c c' P R v w := by
  refine Value.paired_induction (Q := CodeRelated c c' P R) (fun _ _ => hr.matched) ?_ h
  intro v w hp h
  replace h : Value.Matched (CodeRelated c c' P R) v w :=
    h.relate (fun _ _ => id) (fun _ _ => id) (h.slots.imp fun _ _ h => h.2)
  exact
    { related := hp
      exprSlot := hr.exprSlot hp h
      exprItems := hr.exprItems hp h
      property? := hr.property? h
      access? := hr.access? h
      items? := items? h
      pointee? := pointee? h
      counter? := hr.counter? h
      querySource := hr.querySource h
      queryClause := hr.queryClause hp h
      queryClauseItems := hr.queryClauseItems hp h
      ordering := hr.ordering h
      orderingItems := hr.orderingItems hp h
      queryOperation := hr.queryOperation hp h
      queryBody := hr.queryBody h
      queryContinuation := hr.queryContinuation h
      stmtSlot := hr.stmtSlot hp h
      stmtItems := hr.stmtItems hp h
      catchClause := hr.catchClause h
      catchItems := hr.catchItems hp h
      caseLabels := hr.caseLabels h
      switchCase := hr.switchCase hp h
      switchItems := hr.switchItems hp h }

end Related

end Context

end Scribe
