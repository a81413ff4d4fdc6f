import Scribe.Proofs.Equality
import Scribe.Proofs.Matched
import Scribe.Proofs.Members
import Scribe.Proofs.Slots

/-!
# Programs with other variables

What a render takes from the table of variables, and from the format of numbers. The first half says
what does not depend on the table at all: types, descriptions and names of members, and equality, for
which a variable is its place. `Context.Varies` then names what does: the names of variables where
they are declared and used, literals, and the few things that are looked up by name. A render meets no
literals but those that stand in what it is given (`Program.Closed`). Where a congruence of scripts
relates all of these, it relates the two renders of anything (`Context.Varies.rendered`).
-/

namespace Scribe

open Script

/-! ### What does not depend on variables -/

namespace Program

/-- The program with another table of variables. -/
def withLocals (p : Program) (locals : Array VariableSymbol) : Program := { p with locals := locals }

variable (p : Program) (ls : Array VariableSymbol)

@[simp] theorem withLocals_type (t : TypeId) : (p.withLocals ls).type t = p.type t := rfl

@[simp] theorem withLocals_field (id : FieldId) : (p.withLocals ls).field id = p.field id := rfl

@[simp] theorem withLocals_method (id : MethodId) : (p.withLocals ls).method id = p.method id := rfl

@[simp] theorem withLocals_property (id : PropertyId) :
    (p.withLocals ls).property id = p.property id := rfl

@[simp] theorem withLocals_event (id : EventId) : (p.withLocals ls).event id = p.event id := rfl

/-! Types -/

theorem withLocals_qualifierWithin (links : Nat) (t : TypeId) :
    (p.withLocals ls).qualifierWithin links t = p.qualifierWithin links t := by
  induction links generalizing t with
  | zero =>
    unfold qualifierWithin
    rw [withLocals_type]
    rcases (p.type t).owner with (_ | _) | _ | ⟨_ | _, _⟩ | _ | _ | _ | _ | _ | _ <;> rfl
  | succ links ih =>
    unfold qualifierWithin
    rw [withLocals_type]
    rcases (p.type t).owner with (_ | _) | _ | ⟨_ | _, i⟩ | _ | _ | _ | _ | _ | _
    case entity.type => simp only [ih, withLocals_type]
    all_goals rfl

@[simp] theorem withLocals_qualifier (t : TypeId) :
    (p.withLocals ls).qualifier t = p.qualifier t := p.withLocals_qualifierWithin ls _ t

@[simp] theorem withLocals_scope (t : TypeId) : (p.withLocals ls).scope t = p.scope t := by
  rw [scope, scope, withLocals_qualifier]
  rfl

@[simp] theorem withLocals_scopeText (t : TypeId) :
    (p.withLocals ls).scopeText t = p.scopeText t := by
  rw [scopeText, scopeText, withLocals_scope]

@[simp] theorem withLocals_definition (t : TypeId) :
    (p.withLocals ls).definition t = p.definition t := rfl

@[simp] theorem withLocals_shownName (t : TypeId) (scope : Scalar) :
    (p.withLocals ls).shownName t scope = p.shownName t scope := rfl

@[simp] theorem withLocals_typeName (type : Value) :
    (p.withLocals ls).typeName type = p.typeName type := by
  simp only [typeName, withLocals_scope, withLocals_definition, withLocals_shownName]

mutual

@[simp] theorem withLocals_typeSlot (v : Value) : (p.withLocals ls).typeSlot v = p.typeSlot v := by
  cases v with
  | scalar s => cases s <;> rfl
  | entity e =>
    obtain ⟨kind, i⟩ := e
    cases kind with
    | type => exact p.withLocals_typeName ls (.entity ⟨.type, i⟩)
    | _ => rfl
  | type tree => exact withLocals_typeTree tree
  | _ => rfl

theorem withLocals_typeTree : ∀ tree : TypeTree, (p.withLocals ls).typeTree tree = p.typeTree tree
  | .bare => rfl
  | .array element _ | .pointer element => by rw [typeTree, typeTree, withLocals_typeSlot element]
  | .reference element => withLocals_typeSlot element
  | .required element modifier | .optional element modifier => by
    rw [typeTree, typeTree, withLocals_typeSlot element, withLocals_typeName]
  | .functionPointer result parameters => by
    rw [typeTree, typeTree, withLocals_typeSlot result, withLocals_typeItems parameters]
  | .genericArgument _ target => by rw [typeTree, typeTree, withLocals_typeSlot target]

theorem withLocals_typeItems (v : Value) : (p.withLocals ls).typeItems v = p.typeItems v := by
  cases v with
  | list items => exact withLocals_typeSlots items
  | _ => rfl

theorem withLocals_typeSlots : ∀ vs : List Value, (p.withLocals ls).typeSlots vs = p.typeSlots vs
  | [] => rfl
  | first :: rest => by
    rw [typeSlots, typeSlots, withLocals_typeSlot first, withLocals_typeSlots rest]

end

@[simp] theorem withLocals_isType (nameSpace name : Scalar) (v : Value) :
    (p.withLocals ls).isType nameSpace name v = p.isType nameSpace name v := by
  fun_induction p.isType nameSpace name v with
  | case1 => rfl
  | case2 _ _ ih => rw [isType, ih]
  | case3 _ _ ih => rw [isType, ih]
  | case4 _ hentity hrequired hoptional => rw [isType] <;> assumption

@[simp] theorem withLocals_isCoreType (name : String) (v : Value) :
    (p.withLocals ls).isCoreType name v = p.isCoreType name v := by
  simp only [isCoreType, withLocals_isType]

@[simp] theorem withLocals_hasBase (t : TypeId) (name : String) :
    (p.withLocals ls).hasBase t name = p.hasBase t name := by
  simp only [hasBase, withLocals_type, withLocals_isCoreType]

@[simp] theorem withLocals_isEnumeration (t : TypeId) :
    (p.withLocals ls).isEnumeration t = p.isEnumeration t := by
  simp only [isEnumeration, withLocals_hasBase]

@[simp] theorem withLocals_isDelegate (t : TypeId) :
    (p.withLocals ls).isDelegate t = p.isDelegate t := by
  simp only [isDelegate, withLocals_hasBase, withLocals_type]

@[simp] theorem withLocals_isValueType (t : TypeId) :
    (p.withLocals ls).isValueType t = p.isValueType t := by
  simp only [isValueType, withLocals_hasBase, withLocals_type]

@[simp] theorem withLocals_isFunction (method : MethodSymbol) :
    (p.withLocals ls).isFunction method = p.isFunction method := by
  simp only [isFunction, withLocals_isCoreType]

/-! Descriptions and names of members -/

@[simp] theorem withLocals_ownerOf (owner : Value) :
    (p.withLocals ls).ownerOf owner = p.ownerOf owner := by
  simp only [ownerOf, withLocals_scopeText]

@[simp] theorem withLocals_resultType (type : Value) :
    (p.withLocals ls).resultType type = p.resultType type := by
  simp only [resultType, withLocals_typeSlot]

@[simp] theorem withLocals_parameterList (parameters : Value) :
    (p.withLocals ls).parameterList parameters = p.parameterList parameters := rfl

@[simp] theorem withLocals_fieldDescription (id : FieldId) :
    (p.withLocals ls).fieldDescription id = p.fieldDescription id := by
  simp only [fieldDescription, withLocals_field, withLocals_typeSlot, withLocals_ownerOf]

@[simp] theorem withLocals_methodDescription (id : MethodId) :
    (p.withLocals ls).methodDescription id = p.methodDescription id := by
  simp only [methodDescription, withLocals_method, withLocals_resultType, withLocals_ownerOf,
    withLocals_parameterList]

@[simp] theorem withLocals_propertyDescription (id : PropertyId) :
    (p.withLocals ls).propertyDescription id = p.propertyDescription id := by
  rw [propertyDescription, propertyDescription, withLocals_typeSlot, withLocals_ownerOf]
  rfl

@[simp] theorem withLocals_eventDescription (id : EventId) :
    (p.withLocals ls).eventDescription id = p.eventDescription id := by
  simp only [eventDescription, withLocals_event, withLocals_typeSlot, withLocals_ownerOf]

@[simp] theorem withLocals_ownerSlot (member : Value) :
    (p.withLocals ls).ownerSlot member = p.ownerSlot member := rfl

@[simp] theorem withLocals_memberOf (member : Value) :
    (p.withLocals ls).memberOf member = p.memberOf member := by
  simp only [memberOf, withLocals_ownerSlot, withLocals_typeName]

@[simp] theorem withLocals_fieldName (field : Value) :
    (p.withLocals ls).fieldName field = p.fieldName field := by
  simp only [fieldName, withLocals_fieldDescription, withLocals_field]

@[simp] theorem withLocals_methodReference (id leadsTo : MethodId) :
    (p.withLocals ls).methodReference id leadsTo = p.methodReference id leadsTo := by
  simp only [methodReference, withLocals_methodDescription, withLocals_method]

@[simp] theorem withLocals_methodName (method : Value) :
    (p.withLocals ls).methodName method = p.methodName method := by
  simp only [methodName, withLocals_methodReference, withLocals_method]

@[simp] theorem withLocals_memberName (member : Value) :
    (p.withLocals ls).memberName member = p.memberName member := by
  simp only [memberName, propertyName, withLocals_propertyDescription, withLocals_property,
    withLocals_fieldName]

@[simp] theorem withLocals_eventName (event : Value) :
    (p.withLocals ls).eventName event = p.eventName event := by
  simp only [eventName, withLocals_eventDescription, withLocals_event]

@[simp] theorem withLocals_accessorName (accessor : Value) :
    (p.withLocals ls).accessorName accessor = p.accessorName accessor := by
  simp only [accessorName, withLocals_methodReference]

@[simp] theorem withLocals_createdType (constructor type : Value) :
    (p.withLocals ls).createdType constructor type = p.createdType constructor type := by
  simp only [createdType, constructedType, withLocals_typeSlot, withLocals_definition,
    withLocals_methodDescription, withLocals_scope, withLocals_shownName]

@[simp] theorem withLocals_methodSlotDescription (method : Value) :
    (p.withLocals ls).methodSlotDescription method = p.methodSlotDescription method := by
  simp only [methodSlotDescription, withLocals_methodDescription]

theorem withLocals_named {v : Value} (h : ∀ i, v ≠ .entity ⟨.variable, i⟩) :
    (p.withLocals ls).named? v = p.named? v := by
  cases v with
  | entity e =>
    obtain ⟨kind, i⟩ := e
    cases kind with
    | «variable» => exact absurd rfl (h i)
    | _ => rfl
  | stmt s => cases s <;> rfl
  | _ => rfl

/-! Equality: variables are compared by their place alone. -/

theorem withLocals_parts {e : Entity} (h : e.kind ≠ .variable) :
    (p.withLocals ls).parts e = p.parts e := by
  obtain ⟨kind, i⟩ := e
  cases kind with
  | «variable» => exact absurd rfl h
  | _ => rfl

theorem withLocals_sameDetails (eq : Comparison) (a b : Entity) :
    (p.withLocals ls).sameDetails eq a b = p.sameDetails eq a b := by
  rw [Bool.eq_iff_iff, sameDetails_iff, sameDetails_iff]
  refine and_congr_right fun ha => and_congr_right fun hk => ?_
  have hb : b.kind ≠ .variable := p.kind_eq_of_kindName hk ▸ ha
  simp only [compared, p.withLocals_parts ls ha, p.withLocals_parts ls hb]

theorem withLocals_sameWithin (depth : Nat) (a b : Entity) :
    (p.withLocals ls).sameWithin depth a b = p.sameWithin depth a b := by
  induction depth generalizing a b with
  | zero => rfl
  | succ depth ih =>
    have heq : (p.withLocals ls).sameWithin depth = p.sameWithin depth := by
      funext a b
      exact ih a b
    simp only [sameWithin, heq, withLocals_sameDetails]

@[simp] theorem withLocals_same (v w : Value) : (p.withLocals ls).same v w = p.same v w := by
  have heq : (p.withLocals ls).equality = p.equality := by
    unfold equality
    congr 1
    funext a b
    exact p.withLocals_sameWithin ls _ a b
  rw [same, same, heq]

end Program

/-! ### What a render can meet -/

namespace Program

/-- The slots of an entity whose code is written with it. -/
def codeSlots (p : Program) : Entity → List Value
  | ⟨.type, i⟩ => (p.type ⟨i⟩).declared.elim [] fun d => [d.attributes]
  | ⟨.field, i⟩ => (p.field ⟨i⟩).declared.elim [] fun d => [d.attributes, d.initializer]
  | ⟨.method, i⟩ =>
    (p.method ⟨i⟩).declared.elim [] fun d => [d.attributes, d.resultAttributes, d.body]
  | ⟨.property, i⟩ => (p.property ⟨i⟩).declared.elim [] fun d => [d.attributes, d.initializer]
  | ⟨.event, i⟩ => (p.event ⟨i⟩).declared.elim [] fun d => [d.attributes]
  | ⟨.assembly, i⟩ => (p.assembly ⟨i⟩).declared.elim [] fun d => [d.attributes]
  | ⟨.module, i⟩ => (p.module ⟨i⟩).declared.elim [] fun d => [d.attributes]
  | _ => []

/-- The slots of an entity whose items are declared with it. -/
def memberSlots (p : Program) : Entity → List Value
  | ⟨.type, i⟩ => (p.type ⟨i⟩).declared.elim [] fun d =>
    [d.events, d.methods, d.properties, d.fields, d.nested]
  | ⟨.nameSpace, i⟩ => [(p.nameSpace ⟨i⟩).types]
  | _ => []

theorem codeSlots_type {p : Program} {t : TypeId} {d : TypeDetails}
    (hd : (p.type t).declared = some d) : p.codeSlots t.entity = [d.attributes] := by
  show (p.type t).declared.elim [] _ = _
  rw [hd]
  rfl

theorem memberSlots_type {p : Program} {t : TypeId} {d : TypeDetails}
    (hd : (p.type t).declared = some d) :
    p.memberSlots t.entity = [d.events, d.methods, d.properties, d.fields, d.nested] := by
  show (p.type t).declared.elim [] _ = _
  rw [hd]
  rfl

/-- A collection `D` of what is declared and a collection `S` of what is written, which a render that
starts in them does not leave. Scalars are in both. -/
structure Closed (p : Program) (D S : Value → Prop) : Prop where
  scalar (s : Scalar) : D (.scalar s) ∧ S (.scalar s)
  slot {v w : Value} : S v → w ∈ v.slots → S w
  code {e : Entity} {v : Value} : D (.entity e) → v ∈ p.codeSlots e → S v
  member {e : Entity} {v w : Value} : D (.entity e) → v ∈ p.memberSlots e → w ∈ v.slots → D w

namespace Closed

variable {p : Program} {D S : Value → Prop} (hS : p.Closed D S)

include hS

theorem items {v : Value} (h : S v) {items : List Value} (hi : v.items = .ok items) :
    ∀ u ∈ items, S u := by
  intro u hu
  obtain hslot | ⟨s, rfl⟩ := Value.mem_items hi hu
  · exact hS.slot h hslot
  · exact (hS.scalar s).2

theorem members {e : Entity} {v : Value} (h : D (.entity e)) (hv : v ∈ p.memberSlots e)
    (items : List Value) (hi : v.items = .ok items) : ∀ u ∈ items, D u := by
  intro u hu
  obtain hslot | ⟨s, rfl⟩ := Value.mem_items hi hu
  · exact hS.member h hv hslot
  · exact (hS.scalar s).1

theorem ownFields {t : TypeId} {d : TypeDetails} (h : D (.entity t.entity))
    (hd : (p.type t).declared = some d) (fields : List Value) (hf : p.ownFields t d = .ok fields) :
    ∀ u ∈ fields, D u := by
  obtain ⟨items, hi, hf⟩ := Except.bind_eq_ok hf
  rw [p.fieldsWithoutBacking_eq t hf]
  intro u hu
  exact hS.members h (by simp [memberSlots_type hd]) items hi u (List.mem_filter.1 hu).1

end Closed

end Program

theorem Value.eq_entity_of_id? {kind : EntityKind} {v : Value} {id : Id kind}
    (h : v.id? kind = some id) : v = .entity id.entity := by
  unfold id? at h
  split at h
  · split_ifs at h with hk
    cases h
    subst hk
    rfl
  · cases h

/-- The arguments of an attribute stand in it. -/
theorem Value.mem_slots_of_attribute {a constructor arguments : Value}
    (h : a.attribute? = some (constructor, arguments)) : arguments ∈ a.slots := by
  unfold attribute? at h
  split at h <;> cases h
  · simp [slots]
  · simp [slots, Expr.slots]

/-! ### Declarations -/

namespace Context

/-- The context with another table of variables, and with numbers written in another format. -/
def vary (c : Context) (locals : Array VariableSymbol) (format : NumberFormat) : Context where
  program := c.program.withLocals locals
  style := { c.style with numberFormat := format }
  layer := c.layer

/-- Something with one target and two names, of which all that is written is related. -/
inductive NamedAlike (R : Script → Script → Prop) : Named → Named → Prop
  | mk {target : Target} {name name' : Value} :
    (∀ kind {a a' : Script}, R a a' →
      R (given name.asName fun name => step (.log (.declaration kind name)) ++ a)
        (given name'.asName fun name => step (.log (.declaration kind name)) ++ a')) →
    R (declaration name (some target)) (declaration name' (some target)) →
    R (given (Program.variableDescription name) fun tooltip => reference name tooltip target)
      (given (Program.variableDescription name') fun tooltip => reference name' tooltip target) →
    R (given (Program.parameterDescription name) fun tooltip =>
        reference (Program.parameterName name) tooltip target)
      (given (Program.parameterDescription name') fun tooltip =>
        reference (Program.parameterName name') tooltip target) →
    NamedAlike R ⟨target, name⟩ ⟨target, name'⟩

theorem NamedAlike.refl {R : Script → Script → Prop} (hr : Congruence R) (n : Named) :
    NamedAlike R n n :=
  .mk (fun _ _ _ h => hr.given _ fun _ => hr.after _ h) (hr.refl _) (hr.refl _) (hr.refl _)

/-- Two ways of rendering, with other variables and another format of numbers, in which what is
written of names, of the literals in `S` and of the details of headers is related, and which find the
same variables, attributes and methods. -/
structure Varies (c : Context) (ls : Array VariableSymbol) (format : NumberFormat)
    (D S : Value → Prop) (R : Script → Script → Prop) : Prop extends Congruence R where
  closed : c.program.Closed D S
  named (v : Value) :
    Option.Rel (NamedAlike R) (c.program.named? v) ((c.program.withLocals ls).named? v)
  literal {v k : Value} : S (.expr (.literal v k)) →
    R (c.expr (.literal v k)) ((c.vary ls format).expr (.literal v k))
  hoisted (body : Value) : (c.program.withLocals ls).hoisted body = c.program.hoisted body
  attributeName (a : Value) :
    (c.program.withLocals ls).attributeName a = c.program.attributeName a
  findMethod (t : TypeId) (name : Scalar) :
    (c.program.withLocals ls).findMethod t name = c.program.findMethod t name
  shownText (before : String) (v : Value) (after : String) :
    R (c.program.shownText before v after) ((c.program.withLocals ls).shownText before v after)
  noAccessor (id : PropertyId) :
    R (.fail (c.program.noAccessor id)) (.fail ((c.program.withLocals ls).noAccessor id))
  noInvoke (t : TypeId) :
    R (.fail (c.program.noInvoke t)) (.fail ((c.program.withLocals ls).noInvoke t))

namespace Varies

variable {c : Context} {ls : Array VariableSymbol} {format : NumberFormat} {D S : Value → Prop}
  {R : Script → Script → Prop} (hv : Varies c ls format D S R)

include hv

/-- What is written of something, if it has a name. -/
theorem ofNamed (v : Value) {f f' : Named → Script}
    (h : ∀ n n', c.program.named? v = some n → NamedAlike R n n' → R (f n) (f' n')) :
    R (match c.program.named? v with | some n => f n | none => fail .malformed)
      (match (c.vary ls format).program.named? v with | some n => f' n | none => fail .malformed) := by
  have hnamed : Option.Rel (NamedAlike R) (c.program.named? v)
    ((c.vary ls format).program.named? v) := hv.named v
  generalize c.program.named? v = n at hnamed h ⊢
  generalize (c.vary ls format).program.named? v = n' at hnamed ⊢
  cases hnamed with
  | none => exact hv.fail _
  | some hn => exact h _ _ rfl hn

theorem variableDeclaration (v : Value) : R (c.program.variableDeclaration v)
    ((c.vary ls format).program.variableDeclaration v) :=
  hv.ofNamed v fun _ _ _ hn => by cases hn with | mk _ h => exact h

theorem variableUse (v : Value) :
    R (c.program.variableUse v) ((c.vary ls format).program.variableUse v) :=
  hv.ofNamed v fun _ _ _ hn => by cases hn with | mk _ _ h => exact h

theorem argumentUse (v : Value) :
    R (c.program.argumentUse v) ((c.vary ls format).program.argumentUse v) :=
  hv.ofNamed v fun _ _ _ hn => by cases hn with | mk _ _ _ h => exact h

/-- A call of an accessor on related targets, with related arguments. -/
theorem accessorCall (id : PropertyId) (accessor : Value) {s s' : Script} {l l' : List Script}
    (hs : R s s') (hl : List.Forall₂ R l l') : R (c.program.accessorCall id accessor s l)
      ((c.program.withLocals ls).accessorCall id accessor s' l') := by
  unfold Program.accessorCall
  rw [Program.withLocals_accessorName]
  exact related_ite (hv.noAccessor id) (hv.before (hv.append (hv.before (hv.before hs _) _)
    (hv.commaSeparated hl)) _)

theorem read (v : Value) {s s' : Script} {l l' : List Script} (hs : R s s')
    (hl : List.Forall₂ R l l') : R (c.read ⟨v, s, l⟩) ((c.vary ls format).read ⟨v, s', l'⟩) := by
  unfold Context.read
  split
  · next h => cases h; exact hv.accessorCall _ _ hs hl
  · exact hv.fail _

theorem write (v : Value) {s s' x x' : Script} {l l' : List Script} (hs : R s s')
    (hl : List.Forall₂ R l l') (hx : R x x') :
    R (c.write ⟨v, s, l⟩ x) ((c.vary ls format).write ⟨v, s', l'⟩ x') := by
  unfold Context.write
  split
  · next h => cases h; exact hv.accessorCall _ _ hs (List.rel_append hl (.cons hx .nil))
  · exact hv.fail _

theorem functionBody (body : Value) {s s' : Script} (h : R s s') :
    R (c.functionBody body s) ((c.vary ls format).functionBody body s') := by
  have hhoisted : (c.vary ls format).program.hoisted body = c.program.hoisted body :=
    hv.hoisted body
  have hdeclarations : R (c.declarations body) ((c.vary ls format).declarations body) := by
    unfold Context.declarations
    rw [hhoisted]
    refine hv.given _ fun locals => hv.after _ (hv.concat (related_map fun id _ => ?_))
    exact hv.before (hv.before (hv.after _ (hv.variableDeclaration _)) _) _
  exact related_ite (hv.before (hv.append (hv.after _ hdeclarations) (hv.body h)) _) (hv.fail _)

theorem typeSlot (v : Value) :
    R (c.program.typeSlot v) ((c.vary ls format).program.typeSlot v) :=
  hv.of_eq (c.program.withLocals_typeSlot ls v).symm

theorem parameterList (v : Value) :
    R (c.program.parameterList v) ((c.vary ls format).program.parameterList v) :=
  hv.refl _

/-- All code is related that stands in `S`. -/
theorem related : Related c (c.vary ls format) (fun v w => v = w ∧ S v) R where
  toCongruence := hv.toCongruence
  matched := by
    rintro v _ ⟨rfl, h⟩
    have hself : Value.Matched Eq v v :=
      Value.Paired.refl Scalar.same_self (fun _ => trivial) (fun _ => rfl) v
    exact hself.relate (fun _ _ => id) (fun _ _ => id)
      (List.forall₂_same.2 fun u hu => ⟨rfl, hv.closed.slot h hu⟩)
  scalar s := ⟨rfl, (hv.closed.scalar s).2⟩
  unsupported := by
    rintro v _ category ⟨rfl, -⟩
    exact hv.refl _
  unknown := by
    rintro v _ category ⟨rfl, -⟩
    exact hv.refl _
  same := by
    rintro v _ w _ ⟨rfl, -⟩ ⟨rfl, -⟩
    exact (c.program.withLocals_same ls v w).symm
  literal := by
    rintro v _ k _ ⟨⟨⟩, h⟩
    exact hv.literal h
  snippet := by
    rintro v _ ⟨rfl, -⟩
    exact hv.refl _
  jump := by
    rintro v _ ⟨rfl, -⟩
    exact hv.refl _
  label := by
    rintro v _ ⟨rfl, -⟩
    exact hv.refl _
  sized := by
    rintro v _ ⟨rfl, -⟩ hl
    exact related_ite (hv.refl _) (hv.between _ _ (hv.commaSeparated hl))
  typeSlot := by
    rintro v _ ⟨rfl, -⟩
    exact hv.typeSlot v
  typeName := by
    rintro v _ ⟨rfl, -⟩
    exact hv.of_eq (c.program.withLocals_typeName ls v).symm
  ownField := by
    rintro v _ ⟨rfl, -⟩
    exact hv.append (hv.of_eq (c.program.withLocals_memberOf ls v).symm)
      (hv.of_eq (c.program.withLocals_fieldName ls v).symm)
  ownMethod := by
    rintro v _ ⟨rfl, -⟩
    exact hv.append (hv.of_eq (c.program.withLocals_memberOf ls v).symm)
      (hv.of_eq (c.program.withLocals_methodName ls v).symm)
  fieldName := by
    rintro v _ ⟨rfl, -⟩
    exact hv.of_eq (c.program.withLocals_fieldName ls v).symm
  methodName := by
    rintro v _ ⟨rfl, -⟩
    exact hv.of_eq (c.program.withLocals_methodName ls v).symm
  memberName := by
    rintro v _ ⟨rfl, -⟩
    exact hv.of_eq (c.program.withLocals_memberName ls v).symm
  eventName := by
    rintro v _ ⟨rfl, -⟩
    exact hv.of_eq (c.program.withLocals_eventName ls v).symm
  argumentUse := by
    rintro v _ ⟨rfl, -⟩
    exact hv.argumentUse v
  variableUse := by
    rintro v _ ⟨rfl, -⟩
    exact hv.variableUse v
  variableDeclaration := by
    rintro v _ ⟨rfl, -⟩
    exact hv.variableDeclaration v
  parameterList := by
    rintro v _ ⟨rfl, -⟩
    exact hv.parameterList v
  createdType := by
    rintro k _ v _ ⟨rfl, -⟩ ⟨rfl, -⟩
    exact hv.of_eq (c.program.withLocals_createdType ls k v).symm
  read := by
    rintro v _ s s' l l' ⟨rfl, -⟩
    exact hv.read v
  write := by
    rintro v _ s s' l l' x x' ⟨rfl, -⟩
    exact hv.write v
  functionBody := by
    rintro v _ ⟨rfl, -⟩
    exact hv.functionBody v

theorem exprSlot {v : Value} (h : S v) : R (c.exprSlot v) ((c.vary ls format).exprSlot v) :=
  (hv.related.code ⟨rfl, h⟩).exprSlot

theorem stmtSlot {v : Value} (h : S v) : R (c.stmtSlot v) ((c.vary ls format).stmtSlot v) :=
  (hv.related.code ⟨rfl, h⟩).stmtSlot

theorem attributeUse {a : Value} (h : S a) :
    R (c.attributeUse a) ((c.vary ls format).attributeUse a) := by
  have hname : (c.vary ls format).program.attributeName a = c.program.attributeName a :=
    hv.attributeName a
  unfold Context.attributeUse
  rw [hname]
  refine hv.given _ fun name => ?_
  split
  · next constructor arguments ha =>
    have htooltip : (c.vary ls format).program.methodSlotDescription (.entity constructor) =
        c.program.methodSlotDescription (.entity constructor) :=
      c.program.withLocals_methodSlotDescription ls _
    rw [htooltip]
    refine hv.given _ fun tooltip => hv.after _ (related_ite (hv.parenthesized ?_) hv.empty)
    have harguments : S arguments := hv.closed.slot h (Value.mem_slots_of_attribute ha)
    exact hv.commaSeparated (hv.related.code ⟨rfl, harguments⟩).exprItems
  · exact hv.fail _

theorem attributeLines (target : AttributeTarget) {shown : List Value} (h : ∀ a ∈ shown, S a) :
    R (c.attributeLines target shown) ((c.vary ls format).attributeLines target shown) := by
  have hlines (opening : String) : List.Forall₂ R
      (shown.map fun a => between opening "]" (c.attributeUse a) ++ lineBreak)
      (shown.map fun a => between opening "]" ((c.vary ls format).attributeUse a) ++ lineBreak) :=
    related_map fun a ha => hv.before (hv.between _ _ (hv.attributeUse (h a ha))) _
  have hline := related_map fun a ha => hv.attributeUse (h a ha)
  cases target with
  | assembly | module => exact hv.after _ (hv.concat (hlines _))
  | entity | result => exact hv.before (hv.before (hv.after _ (hv.commaSeparated hline)) _) _

theorem shownAttributes (attributes : List Value) :
    (c.program.withLocals ls).shownAttributes attributes = c.program.shownAttributes attributes := by
  induction attributes with
  | nil => rfl
  | cons a attributes ih =>
    rw [Program.shownAttributes, Program.shownAttributes, ih, hv.attributeName]

theorem attributes (target : AttributeTarget) {attributes : Value} (h : S attributes) :
    R (c.attributes target attributes) ((c.vary ls format).attributes target attributes) := by
  have hshown : (c.vary ls format).program.shownAttributes = c.program.shownAttributes :=
    funext hv.shownAttributes
  refine related_ite ?_ hv.empty
  rw [hshown]
  refine hv.given_ok fun shown hs => ?_
  cases shown with
  | nil => exact hv.empty
  | cons a shown =>
    refine hv.attributeLines target fun a ha => ?_
    obtain ⟨items, hi, hs⟩ := Except.bind_eq_ok hs
    exact hv.closed.items h hi a (c.program.shownAttributes_subset hs ha)

theorem fieldValue {initializer : Value} (h : S initializer) (ending : Script) :
    R (c.fieldValue initializer ending) ((c.vary ls format).fieldValue initializer ending) := by
  unfold Context.fieldValue
  split
  · exact hv.refl _
  · exact hv.before (hv.optionally _ (hv.after _ (hv.exprSlot h))) _

theorem fieldDeclaration {v : Value} (h : D v) :
    R (c.fieldDeclaration v) ((c.vary ls format).fieldDeclaration v) := by
  unfold Context.fieldDeclaration
  split
  · next i =>
    show R ((c.program.field ⟨i⟩).declared.elim _ (c.fieldDetails ⟨i⟩))
      ((c.program.field ⟨i⟩).declared.elim _ ((c.vary ls format).fieldDetails ⟨i⟩))
    cases hd : (c.program.field ⟨i⟩).declared with
    | none => exact hv.fail _
    | some d =>
      have hinitializer := hv.closed.code h (v := d.initializer) (by simp [Program.codeSlots, hd])
      have hattributes := hv.closed.code h (v := d.attributes) (by simp [Program.codeSlots, hd])
      have henum : (c.vary ls format).program.isEnumeration = c.program.isEnumeration :=
        funext (c.program.withLocals_isEnumeration ls)
      have htype := hv.typeSlot (c.program.field ⟨i⟩).type
      simp only [Option.elim, Context.fieldDetails, henum]
      refine related_ite ?_ ?_
      · exact hv.append (hv.before (hv.attributes _ hattributes) _) (hv.fieldValue hinitializer _)
      · exact hv.append (hv.append (hv.before (hv.before (hv.before (hv.attributes _ hattributes) _)
          _) _) htype) (hv.fieldValue hinitializer _)
  · exact hv.fail _

theorem methodHead (id : MethodId) {d : MethodDetails} (h : S d.attributes)
    (h' : S d.resultAttributes) : R (c.methodHead id d) ((c.vary ls format).methodHead id d) := by
  refine related_ite ?_ (hv.of_eq ?_)
  · exact hv.before (hv.before (hv.before (hv.append (hv.attributes _ h) (hv.attributes _ h')) _) _) _
  · exact congrArg (· ++ _) (c.program.withLocals_ownerOf ls _).symm

theorem functionBodyOf {body : Value} (h : S body) :
    R (c.functionBody body (body.optionally (c.stmtSlot body)))
      ((c.vary ls format).functionBody body (body.optionally ((c.vary ls format).stmtSlot body))) :=
  hv.functionBody body (hv.optionally _ (hv.stmtSlot h))

/-- What is noted of a declaration, and what follows. -/
theorem noted (kind : String) (v : Value) {next next' : Named → Script}
    (h : ∀ n n', c.program.named? v = some n → NamedAlike R n n' → R (next n) (next' n')) :
    R (c.noted kind v next) ((c.vary ls format).noted kind v next') := by
  refine hv.ofNamed v fun n n' hv hn => ?_
  have hnext := h n n' hv hn
  cases hn with
  | mk hnoted => exact hnoted kind hnext

theorem methodDeclaration {v : Value} (h : D v) :
    R (c.methodDeclaration v) ((c.vary ls format).methodDeclaration v) := by
  refine hv.noted _ v fun n n' hname hn => ?_
  obtain @⟨⟨kind, i⟩ | mark, _, _, -, -, -, -⟩ := hn
  · cases kind with
    | method =>
      show R ((c.program.method ⟨i⟩).declared.elim _ (c.methodDetails ⟨i⟩))
        ((c.program.method ⟨i⟩).declared.elim _ ((c.vary ls format).methodDetails ⟨i⟩))
      cases hd : (c.program.method ⟨i⟩).declared with
      | none => exact hv.fail _
      | some d =>
        obtain rfl := c.program.eq_entity_of_named hname
        have hbody := hv.closed.code h (v := d.body) (by simp [Program.codeSlots, hd])
        have hattributes := hv.closed.code h (v := d.attributes) (by simp [Program.codeSlots, hd])
        have hresult := hv.closed.code h (v := d.resultAttributes) (by simp [Program.codeSlots, hd])
        have hparameters := hv.parameterList (c.program.method ⟨i⟩).parameters
        refine hv.before (hv.append (hv.before (hv.before (hv.append (hv.before (hv.before ?_ _) _)
          hparameters) _) _) (hv.indented (hv.functionBodyOf hbody))) _
        exact hv.methodHead ⟨i⟩ hattributes hresult
    | _ => exact hv.fail _
  · exact hv.fail _

theorem accessor (word : String) (shared own : List String) (v : Value) :
    R (c.accessor word shared own v) ((c.vary ls format).accessor word shared own v) :=
  hv.optionally _ (hv.after _ (hv.of_eq (c.program.withLocals_accessorName ls v).symm))

theorem propertyDeclaration {v : Value} (h : D v) :
    R (c.propertyDeclaration v) ((c.vary ls format).propertyDeclaration v) := by
  unfold Context.propertyDeclaration
  split
  · next i =>
    show R ((c.program.property ⟨i⟩).declared.elim _ (c.propertyDetails ⟨i⟩))
      ((c.program.property ⟨i⟩).declared.elim _ ((c.vary ls format).propertyDetails ⟨i⟩))
    cases hd : (c.program.property ⟨i⟩).declared with
    | none => exact hv.fail _
    | some d =>
      have hinitializer := hv.closed.code h (v := d.initializer) (by simp [Program.codeSlots, hd])
      have hattributes := hv.closed.code h (v := d.attributes) (by simp [Program.codeSlots, hd])
      have htype := hv.typeSlot (c.program.property ⟨i⟩).type
      have hparameters := hv.parameterList (c.program.property ⟨i⟩).parameters
      refine hv.append (hv.attributes _ hattributes) (hv.given _ fun getter => hv.given _ fun setter => ?_)
      refine hv.before (hv.append (hv.append (hv.append (hv.append (hv.before (hv.append (hv.refl _)
        ?_) _) htype) (hv.accessor _ _ _ _)) (hv.accessor _ _ _ _)) ?_) _
      · exact related_ite (hv.parenthesized hparameters) hv.empty
      · exact hv.optionally _ (hv.between _ _ (hv.exprSlot hinitializer))
  · exact hv.fail _

theorem eventDeclaration {v : Value} (h : D v) :
    R (c.eventDeclaration v) ((c.vary ls format).eventDeclaration v) := by
  unfold Context.eventDeclaration
  split
  · next i =>
    show R ((c.program.event ⟨i⟩).declared.elim _ (c.eventDetails ⟨i⟩))
      ((c.program.event ⟨i⟩).declared.elim _ ((c.vary ls format).eventDetails ⟨i⟩))
    cases hd : (c.program.event ⟨i⟩).declared with
    | none => exact hv.fail _
    | some d =>
      have hattributes := hv.closed.code h (v := d.attributes) (by simp [Program.codeSlots, hd])
      have htype := hv.typeSlot (c.program.event ⟨i⟩).type
      exact hv.before (hv.before (hv.before (hv.append (hv.before (hv.before
        (hv.attributes _ hattributes) _) _) htype) _) _) _
  · exact hv.fail _

/-! ### Types -/

theorem signature (id : MethodId) : R (c.signature id) ((c.vary ls format).signature id) := by
  have hfunction : (c.vary ls format).program.isFunction (c.program.method id) =
      c.program.isFunction (c.program.method id) := c.program.withLocals_isFunction ls _
  have hparameters := hv.parameterList (c.program.method id).parameters
  have hresult := hv.typeSlot (c.program.method id).result
  show R (text (if c.program.isFunction _ then _ else _) ++ _ ++ _ ++ (if _ then _ else ∅) ++ _)
    (text (if (c.vary ls format).program.isFunction (c.program.method id) then _ else _) ++ _ ++ _ ++
      (if (c.vary ls format).program.isFunction (c.program.method id) then _ else ∅) ++ _)
  rw [hfunction]
  exact hv.before (hv.append (hv.append (hv.refl _) (hv.parenthesized hparameters))
    (related_ite (hv.after _ hresult) hv.empty)) _

theorem delegateSignature (t : TypeId) :
    R (c.delegateSignature t) ((c.vary ls format).delegateSignature t) := by
  have hfind : (c.vary ls format).program.findMethod t (.text "Invoke") =
      c.program.findMethod t (.text "Invoke") := hv.findMethod t _
  unfold Context.delegateSignature
  rw [hfind]
  refine hv.given _ fun invoke => ?_
  split
  · exact hv.noInvoke t
  · exact hv.signature _
  · exact hv.fail _

theorem enumerationElement {v : Value} (h : D v) :
    R (c.enumerationElement v) ((c.vary ls format).enumerationElement v) := by
  unfold Context.enumerationElement
  split
  · next i =>
    have hinitializer : S ((c.program.field ⟨i⟩).declared.elim .null (·.initializer)) := by
      cases hd : (c.program.field ⟨i⟩).declared with
      | none => exact (hv.closed.scalar _).2
      | some d => exact hv.closed.code h (by simp [Program.codeSlots, hd])
    exact hv.after _ (hv.optionally _ (hv.after _ (hv.exprSlot hinitializer)))
  · exact hv.fail _

omit hv in
theorem ownFields (t : TypeId) (d : TypeDetails) :
    (c.program.withLocals ls).ownFields t d = c.program.ownFields t d := by
  have hbacking (field : Value) :
      (c.program.withLocals ls).isBackingField t field = c.program.isBackingField t field := by
    simp only [Program.isBackingField, Program.withLocals_field, Program.withLocals_same]
  have hfields (fields : List Value) : (c.program.withLocals ls).fieldsWithoutBacking t fields =
      c.program.fieldsWithoutBacking t fields := by
    induction fields with
    | nil => rfl
    | cons field fields ih =>
      rw [Program.fieldsWithoutBacking, Program.fieldsWithoutBacking, hbacking, ih]
  exact congrArg d.fields.items.bind (funext hfields)

theorem enumerationElements {t : TypeId} {d : TypeDetails} (h : D (.entity t.entity))
    (hd : (c.program.type t).declared = some d) :
    R (c.enumerationElements t d) ((c.vary ls format).enumerationElements t d) := by
  have hfields : (c.vary ls format).program.ownFields t d = c.program.ownFields t d := ownFields t d
  refine hv.between _ _ ?_
  rw [hfields]
  refine hv.given_ok fun fields hf => hv.commaSeparated (related_map fun u hu => ?_)
  exact hv.enumerationElement (hv.closed.ownFields h hd fields hf u hu)

theorem prototypeLine (t : TypeId) (d : TypeDetails) :
    R (c.prototypeLine t d) ((c.vary ls format).prototypeLine t d) := by
  refine hv.of_eq ?_
  show c.prototypeLine t d = Context.prototypeLine { program := c.program.withLocals ls } t d
  simp only [Context.prototypeLine, Program.withLocals_isValueType, Program.withLocals_isCoreType,
    Program.withLocals_scopeText, Program.withLocals_typeName]

theorem typeHeader {t : TypeId} {d : TypeDetails} (h : D (.entity t.entity))
    (hd : (c.program.type t).declared = some d) :
    R (c.typeHeader t d) ((c.vary ls format).typeHeader t d) := by
  have hscope : (c.vary ls format).program.scope t = c.program.scope t :=
    c.program.withLocals_scope ls t
  have hqualifier : (c.vary ls format).typeQualifier t = c.typeQualifier t := by
    show Context.typeQualifier { program := c.program.withLocals ls } t = c.typeQualifier t
    simp only [Context.typeQualifier, Program.withLocals_qualifier]
    rfl
  have hdelegate : (c.vary ls format).program.isDelegate t = c.program.isDelegate t :=
    c.program.withLocals_isDelegate ls t
  have henum : (c.vary ls format).program.isEnumeration t = c.program.isEnumeration t :=
    c.program.withLocals_isEnumeration ls t
  unfold Context.typeHeader
  rw [hscope, hqualifier, hdelegate, henum]
  refine hv.append (hv.attributes _ ?_) (hv.given _ fun _ => hv.append (hv.refl _) ?_)
  · exact hv.closed.code h (by simp [Program.codeSlots_type hd])
  refine related_ite (hv.delegateSignature t) (related_ite (hv.enumerationElements h hd) ?_)
  exact hv.after _ (hv.prototypeLine t d)

theorem typeBody {t : TypeId} {d : TypeDetails} (h : D (.entity t.entity))
    (hd : (c.program.type t).declared = some d) {nested nested' : Value → Script}
    (hnested : ∀ v, D v → R (nested v) (nested' v)) :
    R (c.typeBody t d nested) ((c.vary ls format).typeBody t d nested') := by
  have hfields : (c.vary ls format).program.ownFields t d = c.program.ownFields t d := ownFields t d
  have hmembers {v : Value} (hin : v ∈ [d.events, d.methods, d.properties, d.fields, d.nested]) :=
    hv.closed.members h (Program.memberSlots_type hd ▸ hin)
  unfold Context.typeBody
  rw [hfields]
  refine hv.given_ok fun fields hf => hv.append (hv.append (hv.append (hv.append ?_ ?_) ?_) ?_) ?_
  · exact hv.group _ fun vs hvs v hin => hv.eventDeclaration (hmembers (by simp) vs hvs v hin)
  · exact hv.group _ fun vs hvs v hin => hv.methodDeclaration (hmembers (by simp) vs hvs v hin)
  · exact hv.group _ fun vs hvs v hin => hv.propertyDeclaration (hmembers (by simp) vs hvs v hin)
  · refine hv.group _ fun vs hvs v hin => hv.fieldDeclaration ?_
    cases hvs
    exact hv.closed.ownFields h hd fields hf v hin
  · exact hv.nestedGroup fun vs hvs v hin => hnested v (hmembers (by simp) vs hvs v hin)

omit hv in
theorem showsBody (t : TypeId) : (c.vary ls format).showsBody t = c.showsBody t := by
  show (c.style.showTypeBody && !(c.program.withLocals ls).isDelegate t &&
    !(c.program.withLocals ls).isEnumeration t) = _
  rw [Program.withLocals_isDelegate, Program.withLocals_isEnumeration]
  rfl

theorem typeDeclarationWithin (levels : Nat) (v : Value) (h : D v) :
    R (c.typeDeclarationWithin levels v) ((c.vary ls format).typeDeclarationWithin levels v) := by
  induction levels generalizing v with
  | zero => exact hv.fail _
  | succ levels ih =>
    refine hv.noted _ v fun n n' hname hn => ?_
    obtain @⟨⟨kind, i⟩ | mark, _, _, -, -, -, -⟩ := hn
    · cases kind with
      | type =>
        have hdeclared : ((c.vary ls format).program.type ⟨i⟩).declared =
          (c.program.type ⟨i⟩).declared := rfl
        dsimp only
        rw [hdeclared]
        cases hd : (c.program.type ⟨i⟩).declared with
        | none => exact hv.fail _
        | some d =>
          obtain rfl := c.program.eq_entity_of_named hname
          refine hv.append (hv.typeHeader h hd) ?_
          rw [showsBody]
          exact related_ite (hv.typeBody h hd ih) hv.empty
      | _ => exact hv.fail _
    · exact hv.fail _

theorem typeDeclaration {v : Value} (h : D v) :
    R (c.typeDeclaration v) ((c.vary ls format).typeDeclaration v) :=
  hv.typeDeclarationWithin _ v h

/-! ### Containers -/

omit hv in
theorem title {n n' : Named} (hr : Congruence R) (words : String) (h : NamedAlike R n n') :
    R (title words n) (title words n') := by
  cases h with
  | mk _ hname => exact hr.after _ hname

theorem detail (label : String) (v : Value) :
    R (c.program.detail label v) ((c.vary ls format).program.detail label v) :=
  hv.optionally _ (hv.before (hv.shownText _ _ _) _)

theorem assembly {v : Value} (h : D v) : R (c.assembly v) ((c.vary ls format).assembly v) := by
  refine hv.noted _ v fun n n' hname hn => hv.append (title hv.toCongruence _ hn) ?_
  obtain @⟨⟨kind, i⟩ | mark, _, _, -, -, -, -⟩ := hn
  · cases kind with
    | assembly =>
      have hdeclared : ((c.vary ls format).program.assembly ⟨i⟩).declared =
        (c.program.assembly ⟨i⟩).declared := rfl
      refine hv.after _ ?_
      rw [hdeclared]
      cases hd : (c.program.assembly ⟨i⟩).declared with
      | none => exact hv.fail _
      | some d =>
        obtain rfl := c.program.eq_entity_of_named hname
        have hattributes := hv.closed.code h (v := d.attributes) (by simp [Program.codeSlots, hd])
        exact hv.before (hv.append (hv.attributes _ hattributes) (hv.detail _ _)) _
    | _ => exact hv.fail _
  · exact hv.fail _

theorem assemblyReference (v : Value) :
    R (c.assemblyReference v) ((c.vary ls format).assemblyReference v) := by
  refine hv.ofNamed v fun n n' _ hn => ?_
  have htitle := title hv.toCongruence "// Assembly Reference " hn
  cases hn with
  | mk => exact hv.append (hv.before htitle _) (hv.given _ fun version => hv.detail _ _)

theorem module {v : Value} (h : D v) : R (c.module v) ((c.vary ls format).module v) := by
  refine hv.noted _ v fun n n' _ hn => hv.append (hv.before (title hv.toCongruence _ hn) _) ?_
  have hdeclared : ((v.id? .module).bind fun id => ((c.vary ls format).program.module id).declared) =
    (v.id? .module).bind fun id => (c.program.module id).declared := rfl
  rw [hdeclared]
  cases hd : (v.id? .module).bind fun id => (c.program.module id).declared with
  | none => exact hv.fail _
  | some d =>
    obtain ⟨⟨i⟩, hid, hm⟩ := Option.bind_eq_some_iff.1 hd
    obtain rfl := Value.eq_entity_of_id? hid
    have hattributes := hv.closed.code h (v := d.attributes)
      (by simp [Program.codeSlots, Id.entity, hm])
    exact hv.append (hv.append (hv.append (hv.attributes _ hattributes) (hv.detail _ _))
      (hv.detail _ _)) (hv.optionally _ (hv.before (hv.shownText _ _ _) _))

theorem moduleReference (v : Value) :
    R (c.moduleReference v) ((c.vary ls format).moduleReference v) :=
  hv.ofNamed v fun _ _ _ hn => hv.before (title hv.toCongruence _ hn) _

theorem resource (v : Value) : R (c.resource v) ((c.vary ls format).resource v) := by
  unfold Context.resource
  split
  · exact hv.append (hv.before (hv.before (hv.before (hv.shownText _ _ _) _) _) _) (hv.detail _ _)
  · exact hv.fail _

theorem nameSpaceBody {target : Target} (h : ∀ e, target = .entity e → D (.entity e)) :
    R (c.nameSpaceBody target) ((c.vary ls format).nameSpaceBody target) := by
  unfold Context.nameSpaceBody
  split
  · have htypes := hv.closed.members (h _ rfl) List.mem_cons_self
    refine hv.given_ok fun types ht => hv.concat (related_map fun t hin => ?_)
    exact hv.before (hv.after _ (hv.typeDeclaration (htypes types ht t hin))) _
  · exact hv.fail _

theorem nameSpace {v : Value} (h : D v) : R (c.nameSpace v) ((c.vary ls format).nameSpace v) := by
  refine hv.noted _ v fun n n' hname hn => hv.append (hv.before (title hv.toCongruence _ hn) _) ?_
  cases hn with
  | mk =>
    refine related_ite (hv.nameSpaceBody fun e he => ?_) hv.empty
    subst he
    exact c.program.eq_entity_of_named hname ▸ h

/-! ### Whatever can be rendered -/

theorem statement {v : Value} (h : S v) : R (c.statement v) ((c.vary ls format).statement v) := by
  unfold Context.statement
  split
  · exact hv.body (hv.stmtSlot h)
  · exact hv.before (hv.after _ (hv.stmtSlot h)) _

theorem entity {e : Entity} (h : D (.entity e)) : R (c.entity e) ((c.vary ls format).entity e) := by
  have hdeclared : (c.vary ls format).program.isDeclared e = c.program.isDeclared e := rfl
  unfold Context.entity
  rw [hdeclared]
  split
  · exact hv.typeDeclaration h
  · exact hv.typeSlot _
  · exact hv.typeSlot _
  · exact hv.fieldDeclaration h
  · exact hv.methodDeclaration h
  · exact hv.propertyDeclaration h
  · exact hv.eventDeclaration h
  · exact hv.assembly h
  · exact hv.assemblyReference _
  · exact hv.module h
  · exact hv.moduleReference _
  · exact hv.nameSpace h
  · exact hv.resource _
  · exact hv.refl _

/-- What is rendered in the two ways is related, if it starts in `D` and `S`. -/
theorem rendered {v : Value} (hd : D v) (hs : S v) :
    R (c.render v) ((c.vary ls format).render v) := by
  unfold Context.render
  split
  · exact hv.entity hd
  · exact hv.typeSlot _
  · exact hv.exprSlot hs
  · exact hv.statement hs
  · exact hv.refl _

omit hv in
/-- Whatever is rendered in the two ways is related, if all literals are. -/
theorem render (hv : Varies c ls format (fun _ => True) (fun _ => True) R) (v : Value) :
    R (c.render v) ((c.vary ls format).render v) :=
  hv.rendered trivial trivial

end Varies

end Context

end Scribe
