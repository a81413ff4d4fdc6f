import Mathlib.Data.List.Basic
import Scribe.Proofs.CodeRoles
import Scribe.Proofs.Slots

/-!
# Code declares no members

Members are the types, fields, methods, properties and events of a program. `Script.members` are those
that the tokens of a script declare, in order, and a run writes just these
(`Script.filterMap_member`): separators and labels declare none.

Code declares variables and parameters only, as long as no member stands where a variable is bound
(`Value.BindsLocals`): `Context.code_memberless`, by induction on the tree, for all the roles that a
slot can play at once. A script is `Memberless` just if its parts are, so `simp` takes it apart.
-/

namespace Scribe

/-! ### Members among the tokens -/

/-- Whether entities of this kind are members: types, and what types declare. -/
def EntityKind.isMember : EntityKind → Bool
  | .type | .field | .method | .property | .event => true
  | _ => false

/-- The member that a target is. -/
def Target.member? : Target → Option Entity
  | .entity e => if e.kind.isMember then some e else none
  | .statement _ => none

/-- The member that a token declares. -/
def Token.member? : Token → Option Entity
  | .declaration _ target => target.bind Target.member?
  | _ => none

/-- The member that a step declares. -/
def Step.member? : Step → Option Entity
  | .token t => t.member?
  | _ => none

namespace Script

variable {a b s : Script} {l : List Script}

/-- The members that a script declares, in order. -/
def members (s : Script) : List Entity := s.steps.filterMap Step.member?

/-- A run declares the members of its script, on whatever layout. -/
theorem filterMap_member (s : Script) (l : Layout) :
    (s.tokens l).filterMap Token.member? = s.members := by
  have hplaced (t : Token) (h : t.isPlaced = true) : t.member? = none := by
    unfold Token.isPlaced at h
    split at h <;> first | rfl | cases h
  rw [filterMap_tokens hplaced, members]
  exact congrArg (List.filterMap · s.steps) (funext fun step => by cases step <;> rfl)

theorem members_append (h : a.fault = none) (b : Script) :
    (a ++ b).members = a.members ++ b.members := by
  rw [members, steps_append_of_none h, List.filterMap_append, members, members]

/-- No part of the script declares a member, whether a run gets to it or not. -/
inductive Memberless : Script → Prop
  | empty : Memberless ∅
  | fail (f : Fault) : Memberless (fail f)
  | step {s : Step} : s.member? = none → Memberless (step s)
  | append {a b : Script} : Memberless a → Memberless b → Memberless (a ++ b)
  | delayed {part : Unit → Script} : Memberless (part ()) → Memberless (delayed part)

theorem Memberless.members (h : s.Memberless) : s.members = [] := by
  induction h with
  | empty | fail => rfl
  | step hs => simp [Script.members, hs]
  | @append a b _ _ iha ihb =>
    cases hf : a.fault with
    | none => rw [members_append hf, iha, ihb, List.append_nil]
    | some f => rw [Script.members, steps_append_of_some hf]; exact iha
  | delayed _ ih => exact ih

/-! ### Parts -/

attribute [simp] Memberless.empty Memberless.fail

@[simp] theorem memberless_step (s : Step) : (step s).Memberless ↔ s.member? = none :=
  ⟨fun h => by cases h with | step h => exact h, .step⟩

@[simp] theorem memberless_append : (a ++ b).Memberless ↔ a.Memberless ∧ b.Memberless :=
  ⟨fun h => by cases h with | append ha hb => exact ⟨ha, hb⟩, fun h => .append h.1 h.2⟩

@[simp] theorem memberless_delayed (part : Unit → Script) :
    (delayed part).Memberless ↔ (part ()).Memberless :=
  ⟨fun h => by cases h with | delayed h => exact h, .delayed⟩

@[simp] theorem memberless_token (t : Token) : (token t).Memberless ↔ t.member? = none :=
  memberless_step _

@[simp] theorem memberless_text (t : String) : (text t).Memberless := .step rfl

@[simp] theorem memberless_lineBreak : lineBreak.Memberless := .step rfl

@[simp] theorem memberless_given {α : Type} {r : Except Fault α} {next : α → Script}
    (h : ∀ x, (next x).Memberless) : (given r next).Memberless := by
  cases r with
  | ok x => exact h x
  | error f => exact .fail f

@[simp] theorem memberless_ite {p : Prop} [Decidable p] (ha : a.Memberless) (hb : b.Memberless) :
    (if p then a else b).Memberless := by
  split_ifs
  · exact ha
  · exact hb

@[simp] theorem memberless_content (v : Value) : (content v).Memberless := by
  unfold content
  split <;> simp [Token.member?]

@[simp] theorem memberless_reference (name : Value) (tooltip : String) (target : Target) :
    (reference name tooltip target).Memberless := memberless_given fun _ => .step rfl

theorem memberless_declaration (name : Value) {target : Option Target}
    (h : target.bind Target.member? = none) : (declaration name target).Memberless :=
  memberless_given fun _ => .step h

@[simp] theorem memberless_concat : (concat l).Memberless ↔ ∀ s ∈ l, s.Memberless := by
  induction l with
  | nil => exact iff_of_true .empty (List.forall_mem_nil _)
  | cons s l ih => rw [concat, List.foldr_cons, memberless_append, List.forall_mem_cons, ← ih, concat]

@[simp] theorem memberless_commaSeparated :
    (commaSeparated l).Memberless ↔ ∀ s ∈ l, s.Memberless := by
  unfold commaSeparated
  induction l with
  | nil => exact iff_of_true .empty (List.forall_mem_nil _)
  | cons s l ih =>
    cases l with
    | nil => simp [joined]
    | cons t l => simp [joined, ih]

/-! ### Shapes -/

@[simp] theorem memberless_indented : (indented a).Memberless ↔ a.Memberless := by
  simp [indented, Token.member?]

@[simp] theorem memberless_between (opening closing : String) :
    (between opening closing a).Memberless ↔ a.Memberless := by
  simp [between]

@[simp] theorem memberless_parenthesized : (parenthesized a).Memberless ↔ a.Memberless :=
  memberless_between ..

@[simp] theorem memberless_bracketed : (bracketed a).Memberless ↔ a.Memberless :=
  memberless_between ..

@[simp] theorem memberless_body : (body a).Memberless ↔ a.Memberless := by
  simp [body, Step.member?]

@[simp] theorem memberless_braced : (braced a).Memberless ↔ a.Memberless := by
  simp [braced, Step.member?]

@[simp] theorem memberless_simple : (simple a).Memberless ↔ a.Memberless := by
  simp [simple, Step.member?]

@[simp] theorem memberless_caseLabel : (caseLabel a).Memberless ↔ a.Memberless := by
  simp [caseLabel]

@[simp] theorem memberless_rethrow : rethrow.Memberless := by simp [rethrow]

@[simp] theorem memberless_comment (lines : List String) : (comment lines).Memberless := by
  unfold comment
  split <;> simp

theorem memberless_blockItems (index : Nat) (h : ∀ s ∈ l, s.Memberless) :
    (blockItems index l).Memberless := by
  induction l generalizing index with
  | nil => exact .empty
  | cons s l ih =>
    obtain ⟨hs, hl⟩ := List.forall_mem_cons.1 h
    simp [blockItems, hs, ih _ hl]

@[simp] theorem memberless_block (h : ∀ s ∈ l, s.Memberless) : (block l).Memberless := by
  simp [block, Token.member?, memberless_blockItems 0 h]

@[simp] theorem memberless_unary (operator : Value) (h : a.Memberless) :
    (unary operator a).Memberless := by
  unfold unary
  split <;> simp [h]

@[simp] theorem memberless_binary (operator : Value) (ha : a.Memberless) (hb : b.Memberless) :
    (binary operator a b).Memberless := by
  unfold binary
  split <;> simp [ha, hb]

variable (v : Value)

@[simp] theorem memberless_optionally (h : a.Memberless) : (v.optionally a).Memberless :=
  memberless_ite .empty h

@[simp] theorem memberless_unlessEmpty (h : a.Memberless) : (v.unlessEmpty a).Memberless := by
  unfold Value.unlessEmpty
  split <;> simp [h]

@[simp] theorem memberless_asTarget (h : a.Memberless) : (v.asTarget a).Memberless := by
  simp [Value.asTarget, h]

@[simp] theorem memberless_asCondition (h : a.Memberless) : (v.asCondition a).Memberless := by
  unfold Value.asCondition
  split <;> simp [h]

@[simp] theorem memberless_asCallee (h : a.Memberless) : (v.asCallee a).Memberless := by
  unfold Value.asCallee
  split <;> simp [h]

end Script

open Script

/-! ### Where variables are bound -/

namespace Value

/-- The member that a slot holds. -/
def member? : Value → Option Entity
  | .entity e => Target.member? (.entity e)
  | _ => none

/-- The slots of a tree in which a variable is bound. -/
def binders : Value → List Value
  | .expr (.lambda (.list parameters) _) => parameters
  | .stmt (.forEach bound _ _) | .stmt (.fixed bound _ _) => [bound]
  | .clause (.from bound _) | .clause (.let bound _) | .clause (.continuation bound _)
  | .clause (.catch _ bound _) => [bound]
  | .clause (.join bound _ _ _ into) => [bound, into]
  | _ => []

/-- No member stands where a variable is bound. -/
def BindsLocals (v : Value) : Prop := ∀ w, Inside w v → ∀ bound ∈ w.binders, bound.member? = none

theorem BindsLocals.slots {v : Value} (h : v.BindsLocals) : v.slots.Forall BindsLocals :=
  List.forall_iff_forall_mem.2 fun _ hw u hu => h u (hu.slot hw)

theorem bindsLocals_iff (v : Value) : v.BindsLocals ↔
    (∀ bound ∈ v.binders, bound.member? = none) ∧ ∀ u ∈ v.slots, u.BindsLocals :=
  forall_inside_iff

theorem bindsLocals_scalar (s : Scalar) : (Value.scalar s).BindsLocals :=
  (bindsLocals_iff _).2 ⟨List.forall_mem_nil _, List.forall_mem_nil _⟩

theorem BindsLocals.items {v : Value} (h : v.BindsLocals) {items : List Value}
    (hi : v.items = .ok items) : ∀ u ∈ items, u.BindsLocals := by
  intro u hu
  rcases mem_items hi hu with hslot | ⟨s, rfl⟩
  · exact List.forall_iff_forall_mem.1 h.slots u hslot
  · exact bindsLocals_scalar s

end Value

/-! ### Types and names -/

namespace Program

variable (p : Program)

@[simp] theorem typeName_memberless (type : Value) : (p.typeName type).Memberless := by
  unfold typeName
  split <;> simp [Token.member?]

mutual

@[simp] theorem typeSlot_memberless (v : Value) : (p.typeSlot v).Memberless := by
  cases v with
  | scalar s => cases s <;> exact .fail _
  | entity e =>
    obtain ⟨kind, i⟩ := e
    cases kind with
    | type => exact p.typeName_memberless (.entity ⟨.type, i⟩)
    | genericParameter => exact memberless_content _
    | _ => exact .fail _
  | type tree => exact typeTree_memberless tree
  | _ => exact .fail _

theorem typeTree_memberless : ∀ tree : TypeTree, (p.typeTree tree).Memberless
  | .bare => .fail _
  | .array element _ | .pointer element | .required element _ | .optional element _ => by
    simp [typeTree, typeSlot_memberless element]
  | .reference element => typeSlot_memberless element
  | .functionPointer result parameters => by
    have hitems := memberless_commaSeparated.2 (typeItems_memberless parameters)
    simp only [typeTree, memberless_append, hitems, memberless_text,
      memberless_ite (memberless_text _) (typeSlot_memberless result), and_self]
  | .genericArgument _ target => by simp [typeTree, typeSlot_memberless target]

theorem typeItems_memberless (v : Value) : ∀ s ∈ p.typeItems v, s.Memberless := by
  cases v with
  | list items => exact typeSlots_memberless items
  | _ =>
    rw [typeItems]
    exacts [Value.mem_strays _ .fail fun _ => .fail _, by simp]

theorem typeSlots_memberless : ∀ vs : List Value, ∀ s ∈ p.typeSlots vs, s.Memberless
  | [] => by simp [typeSlots]
  | first :: rest => by
    rw [typeSlots, List.forall_mem_cons]
    exact ⟨typeSlot_memberless first, typeSlots_memberless rest⟩

end

@[simp] theorem ownerOf_memberless (owner : Value) : (p.ownerOf owner).Memberless := by
  unfold ownerOf
  split <;> simp

@[simp] theorem memberOf_memberless (member : Value) : (p.memberOf member).Memberless := by
  simp [memberOf]

@[simp] theorem fieldName_memberless (field : Value) : (p.fieldName field).Memberless := by
  unfold fieldName
  split <;> simp

@[simp] theorem methodReference_memberless (id leadsTo : MethodId) :
    (p.methodReference id leadsTo).Memberless := by
  simp [methodReference]

@[simp] theorem methodName_memberless (method : Value) : (p.methodName method).Memberless := by
  unfold methodName
  split
  · split <;> simp
  · simp

@[simp] theorem memberName_memberless (member : Value) : (p.memberName member).Memberless := by
  unfold memberName
  split <;> simp [propertyName]

@[simp] theorem eventName_memberless (event : Value) : (p.eventName event).Memberless := by
  unfold eventName
  split <;> simp

@[simp] theorem accessorName_memberless (accessor : Value) :
    (p.accessorName accessor).Memberless := by
  unfold accessorName
  split <;> simp

@[simp] theorem argumentUse_memberless (parameter : Value) :
    (p.argumentUse parameter).Memberless := by
  unfold argumentUse
  split <;> simp

@[simp] theorem variableUse_memberless (bound : Value) : (p.variableUse bound).Memberless := by
  unfold variableUse
  split <;> simp

@[simp] theorem createdType_memberless (constructor type : Value) :
    (p.createdType constructor type).Memberless := by
  unfold createdType constructedType
  split
  · refine memberless_ite (p.typeSlot_memberless _) ?_
    split
    · exact memberless_given fun _ => memberless_given fun _ => memberless_given fun _ => .step rfl
    · exact .fail _
  · simp

@[simp] theorem accessorCall_memberless (property : PropertyId) (accessor : Value) {target : Script}
    {arguments : List Script} (ht : target.Memberless) (ha : ∀ s ∈ arguments, s.Memberless) :
    (p.accessorCall property accessor target arguments).Memberless := by
  have harguments := memberless_commaSeparated.2 ha
  simp [accessorCall, ht, harguments]

/-- What is declared as a variable is no member, unless it stands in place of one. -/
@[simp] theorem variableDeclaration_memberless {bound : Value} (h : bound.member? = none) :
    (p.variableDeclaration bound).Memberless := by
  unfold variableDeclaration
  split
  · next named hn =>
    refine memberless_declaration _ ?_
    unfold named? at hn
    split at hn <;> cases hn
    · exact h
    · rfl
    · rfl
  · exact .fail _

@[simp] theorem parameterList_memberless (parameters : Value) :
    (p.parameterList parameters).Memberless := by
  refine memberless_given fun parameters => memberless_commaSeparated.2 fun s hs => ?_
  obtain ⟨v, -, rfl⟩ := List.mem_map.1 hs
  unfold parameterDeclaration
  split
  · exact memberless_declaration _ rfl
  · exact .fail _

end Program

/-! ### Expressions and statements -/

namespace Context

variable (c : Context)

/-- No part of an access to a property declares a member. -/
structure Access.Memberless (access : Access) : Prop where
  target : access.target.Memberless
  arguments : ∀ s ∈ access.arguments, s.Memberless

@[simp] theorem read_memberless {access : Access} (h : access.Memberless) :
    (c.read access).Memberless := by
  unfold read
  split
  · exact c.program.accessorCall_memberless _ _ h.target h.arguments
  · exact .fail _

@[simp] theorem write_memberless {access : Access} {value : Script} (h : access.Memberless)
    (hv : value.Memberless) : (c.write access value).Memberless := by
  unfold write
  split
  · refine c.program.accessorCall_memberless _ _ h.target ?_
    rw [List.forall_mem_append, List.forall_mem_singleton]
    exact ⟨h.arguments, hv⟩
  · exact .fail _

theorem assignment_memberless {access : Option Access} {target value : Script}
    (ha : ∀ a ∈ access, a.Memberless) (ht : target.Memberless) (hv : value.Memberless) :
    (c.assignment access target value).Memberless := by
  unfold assignment
  split
  · exact c.write_memberless (ha _ rfl) hv
  · simp [ht, hv]

theorem newArray_memberless (initializer : Value) (isZero : Bool) {items : Option (List Script)}
    {dimensions : List Script} (hi : ∀ l ∈ items, ∀ s ∈ l, s.Memberless)
    (hd : ∀ s ∈ dimensions, s.Memberless) :
    (newArray initializer isZero items dimensions).Memberless := by
  unfold newArray
  split
  · exact memberless_block (hi _ rfl)
  · refine memberless_ite (.fail _) (memberless_ite (memberless_text _) ?_)
    simpa using hd

theorem newMembers_memberless (initializer : Value) {items : Option (List Script)}
    (hi : ∀ l ∈ items, ∀ s ∈ l, s.Memberless) : (newMembers initializer items).Memberless := by
  unfold newMembers
  split
  · exact memberless_ite (.append (memberless_text _) (memberless_block (hi _ rfl))) .empty
  · simp

@[simp] theorem declarations_memberless (body : Value) : (c.declarations body).Memberless := by
  refine memberless_given fun locals => .append (.step rfl) (memberless_concat.2 fun s hs => ?_)
  obtain ⟨id, -, rfl⟩ := List.mem_map.1 hs
  have hbound : (Value.entity id.entity).member? = none := rfl
  simp [c.program.variableDeclaration_memberless hbound]

@[simp] theorem functionBody_memberless (body : Value) {statements : Script}
    (h : statements.Memberless) : (c.functionBody body statements).Memberless := by
  simp [functionBody, Step.member?, h]

@[simp] theorem catchHead_memberless {bound : Value} (h : bound.member? = none) :
    (c.catchHead bound).Memberless := by
  simp [catchHead, h]

@[simp] theorem acquire_memberless (resource : Value) {rendered : Script} (h : rendered.Memberless) :
    (acquire resource rendered).Memberless := by
  simp [acquire, h]

@[simp] theorem release_memberless (resource : Value) {rendered : Script} (h : rendered.Memberless) :
    (c.release resource rendered).Memberless := by
  unfold release
  split <;> simp [h]

/-- The parameters of a lambda. -/
theorem lambdaParameters_memberless {parameters body : Value}
    (h : (Value.expr (.lambda parameters body)).binders.Forall (·.member? = none)) :
    (given parameters.items fun l =>
      commaSeparated (l.map c.program.variableDeclaration)).Memberless := by
  have hdeclared {l : List Value} (hl : ∀ v ∈ l, v.member? = none) :
      (commaSeparated (l.map c.program.variableDeclaration)).Memberless := by
    refine memberless_commaSeparated.2 fun s hs => ?_
    obtain ⟨v, hv, rfl⟩ := List.mem_map.1 hs
    exact c.program.variableDeclaration_memberless (hl v hv)
  cases parameters with
  | list l => exact hdeclared (List.forall_iff_forall_mem.1 h)
  | scalar s =>
    -- The items of a scalar are scalars.
    cases s with
    | text t => exact hdeclared fun v hv => by obtain ⟨_, -, rfl⟩ := List.mem_map.1 hv; rfl
    | bytes b => exact hdeclared fun v hv => by obtain ⟨_, -, rfl⟩ := List.mem_map.1 hv; rfl
    | _ => exact .fail _
  | _ => exact .fail _

/-- No code of a slot declares a member, in whatever role. -/
structure CodeMemberless (v : Value) : Prop where
  exprSlot : (c.exprSlot v).Memberless
  exprItems : ∀ s ∈ c.exprItems v, s.Memberless
  property? : ∀ a ∈ c.property? v, a.Memberless
  access? : ∀ a ∈ c.access? v, a.Memberless
  items? : ∀ l ∈ c.items? v, ∀ s ∈ l, s.Memberless
  pointee? : ∀ s ∈ c.pointee? v, s.Memberless
  counter? (target : Value) {whole : Script} : whole.Memberless →
    ∀ s ∈ c.counter? target whole v, s.Memberless
  querySource : (c.querySource v).Memberless
  queryClause : (c.queryClause v).Memberless
  queryClauseItems : ∀ s ∈ c.queryClauseItems v, s.Memberless
  ordering : (c.ordering v).Memberless
  orderingItems : ∀ s ∈ c.orderingItems v, s.Memberless
  queryOperation : (c.queryOperation v).Memberless
  queryBody : (c.queryBody v).Memberless
  queryContinuation : (c.queryContinuation v).Memberless
  stmtSlot : (c.stmtSlot v).Memberless
  stmtItems : ∀ s ∈ c.stmtItems v, s.Memberless
  catchClause : (c.catchClause v).Memberless
  catchItems : ∀ s ∈ c.catchItems v, s.Memberless
  caseLabels (subject : Value) {whole : Script} : whole.Memberless →
    (c.caseLabels subject whole v).Memberless
  switchCase (subject : Value) : (c.switchCase subject v).Memberless
  switchItems (subject : Value) : ∀ s ∈ c.switchItems subject v, s.Memberless

namespace CodeMemberless

variable {c} {v : Value}

theorem expr {e : Expr} (hb : (Value.expr e).binders.Forall (·.member? = none))
    (h : e.slots.Forall c.CodeMemberless) : (c.expr e).Memberless := by
  cases e with
  | bare | argumentList | base | this => simp [Context.expr]
  | literal => simp [Context.expr]
  | assign target value =>
    obtain ⟨ht, hv⟩ := h
    rw [Context.expr]
    cases hcounter : c.counter? target (c.exprSlot target) value with
    | some s => exact hv.counter? target ht.exprSlot s hcounter
    | none => exact c.assignment_memberless ht.access? ht.exprSlot hv.exprSlot
  | typeOf | fieldOf | methodOf | typeName | argument | declare | «variable» | sizeOf
  | genericDefault | snippet => simp [Context.expr]
  | initMember member value => simp [Context.expr, h.2.exprSlot]
  | field member target | event member target | method member target =>
    simp [Context.expr, h.2.exprSlot]
  | property property target =>
    exact c.read_memberless ⟨memberless_asTarget _ h.2.exprSlot, nofun⟩
  | stackAllocate type size => simp [Context.expr, h.2.exprSlot]
  | block items =>
    rw [Context.expr]
    exact memberless_block h.exprItems
  | arrayCreate type dimensions initializer =>
    exact newArray_memberless _ _ h.2.2.items? h.2.1.exprItems
  | unary operator operand => simp [Context.expr, h.2.exprSlot]
  | binary left operator right => simp [Context.expr, h.1.exprSlot, h.2.2.exprSlot]
  | tryCast operand type | canCast operand type | cast operand type
  | valueOfTyped operand type => simp [Context.expr, h.1.exprSlot]
  | condition test yes no =>
    simp [Context.expr, h.1.exprSlot, h.2.1.exprSlot, h.2.2.exprSlot]
  | coalesce subject fallback => simp [Context.expr, h.1.exprSlot, h.2.exprSlot]
  | delegateCreate type member target => simp [Context.expr, h.2.2.exprSlot]
  | function parameters body type => simp [Context.expr, h.2.1.stmtSlot]
  | lambda parameters body =>
    simp [Context.expr, c.lambdaParameters_memberless hb, h.2.exprSlot]
  | propertyIndexer target indices =>
    rw [Context.expr]
    cases haccess : c.property? target with
    | some access =>
      exact c.read_memberless ⟨(h.1.property? access haccess).target, h.2.exprItems⟩
    | none => exact .fail _
  | arrayIndexer target indices =>
    have hindices : ∀ s ∈ (c.exprItems indices).map bracketed, s.Memberless := by
      simpa using h.2.exprItems
    simp only [Context.expr, memberless_append, h.1.exprSlot, memberless_concat.2 hindices, and_self]
  | invoke target arguments | delegateInvoke target arguments =>
    have harguments := memberless_commaSeparated.2 h.2.exprItems
    simp [Context.expr, h.1.exprSlot, harguments]
  | objectCreate type constructor arguments initializer =>
    have harguments := memberless_commaSeparated.2 h.2.2.1.exprItems
    have hmembers := newMembers_memberless initializer h.2.2.2.items?
    simp [Context.expr, harguments, hmembers]
  | addressOf operand | addressReference operand | addressOut operand | typeOfTyped operand
  | createTyped operand =>
    have hoperand : (c.exprSlot operand).Memberless := h.exprSlot
    simp [Context.expr, hoperand]
  | dereference operand =>
    rw [Context.expr]
    cases hpointee : c.pointee? operand with
    | some s => exact h.pointee? s hpointee
    | none => exact h.exprSlot
  | query source body => simp [Context.expr, h.1.querySource, h.2.queryBody]

theorem stmt {s : Stmt} (h : s.slots.Forall c.CodeMemberless) : (c.stmt s).Memberless := by
  cases s with
  | bare | «break» | «continue» | debugBreak | comment => simp [Context.stmt, Step.member?]
  | block statements =>
    rw [Context.stmt]
    exact memberless_concat.2 h.stmtItems
  | expression value | «return» value | throw value =>
    have hvalue : (c.exprSlot value).Memberless := h.exprSlot
    simp [Context.stmt, hvalue]
  | goto mark label =>
    have hlabel : (declaration label none).Memberless := memberless_declaration label rfl
    simp [Context.stmt, hlabel]
  | labeled mark label statement => simp [Context.stmt, Step.member?, h.2.stmtSlot]
  | condition test yes no =>
    simp [Context.stmt, Step.member?, h.1.exprSlot, h.2.1.stmtSlot, h.2.2.stmtSlot]
  | «for» start test increment body =>
    simp [Context.stmt, Step.member?, h.1.stmtSlot, h.2.1.exprSlot, h.2.2.1.stmtSlot,
      h.2.2.2.stmtSlot]
  | forEach bound source body | fixed bound source body =>
    simp [Context.stmt, Step.member?, h.2.1.exprSlot, h.2.2.stmtSlot]
  | «using» resource body | «while» test body | «do» test body | lock subject body =>
    simp [Context.stmt, Step.member?, h.1.exprSlot, h.2.stmtSlot]
  | «try» body catches fault last =>
    have hcatches := memberless_concat.2 h.2.1.catchItems
    simp [Context.stmt, Step.member?, h.1.stmtSlot, hcatches, h.2.2.1.stmtSlot, h.2.2.2.stmtSlot]
  | attach event listener | detach event listener =>
    simp [Context.stmt, h.1.exprSlot, h.2.exprSlot]
  | switch subject cases =>
    have hcases := memberless_concat.2 (h.2.switchItems subject)
    simp [Context.stmt, Step.member?, h.1.exprSlot, hcases]
  | memoryCopy | memoryFill => simp [Context.stmt, h.1.exprSlot, h.2.1.exprSlot, h.2.2.exprSlot]

/-- The items of a list, each rendered in the same way. -/
theorem items {l : List Value} {f : Value → Script} (h : ∀ v ∈ l, c.CodeMemberless v)
    (hf : ∀ v, c.CodeMemberless v → (f v).Memberless) : ∀ s ∈ l.map f, s.Memberless := by
  intro s hs
  obtain ⟨v, hv, rfl⟩ := List.mem_map.1 hs
  exact hf v (h v hv)

section

variable (h : v.slots.Forall c.CodeMemberless)

include h

theorem exprItems_of_slots : ∀ s ∈ c.exprItems v, s.Memberless := by
  cases v with
  | list l =>
    rw [Context.exprItems, exprSlots_eq]
    exact items (List.forall_iff_forall_mem.1 h) fun _ hv => hv.exprSlot
  | _ => rw [Context.exprItems]; exacts [Value.mem_strays _ .fail fun _ => .fail _, by simp]

theorem property?_of_slots : ∀ a ∈ c.property? v, a.Memberless := by
  unfold Context.property?
  split
  · rintro a ⟨⟩
    exact ⟨memberless_asTarget _ h.2.exprSlot, List.forall_mem_nil _⟩
  · rintro _ ⟨⟩

theorem access?_of_slots : ∀ a ∈ c.access? v, a.Memberless := by
  unfold Context.access?
  split
  · rintro a ⟨⟩
    exact ⟨memberless_asTarget _ h.2.exprSlot, List.forall_mem_nil _⟩
  · intro a ha
    obtain ⟨access, haccess, rfl⟩ := Option.map_eq_some_iff.1 ha
    exact ⟨(h.1.property? access haccess).target, h.2.exprItems⟩
  · rintro _ ⟨⟩

theorem counter?_of_slots (target : Value) {whole : Script} (hw : whole.Memberless) :
    ∀ s ∈ c.counter? target whole v, s.Memberless := by
  unfold Context.counter?
  split
  · intro s hs
    obtain ⟨call, -, rfl⟩ := Option.map_eq_some_iff.1 hs
    simp [hw, h.2.2.exprSlot]
  · rintro _ ⟨⟩

theorem stmtItems_of_slots : ∀ s ∈ c.stmtItems v, s.Memberless := by
  cases v with
  | list l =>
    rw [Context.stmtItems, stmtSlots_eq]
    exact items (List.forall_iff_forall_mem.1 h) fun _ hv => hv.stmtSlot
  | _ => rw [Context.stmtItems]; exacts [Value.mem_strays _ .fail fun _ => .fail _, by simp]

theorem queryClauseItems_of_slots : ∀ s ∈ c.queryClauseItems v, s.Memberless := by
  cases v with
  | list l =>
    rw [Context.queryClauseItems, queryClauses_eq]
    refine items (List.forall_iff_forall_mem.1 h) fun _ hv => ?_
    exact .append memberless_lineBreak hv.queryClause
  | _ =>
    rw [Context.queryClauseItems]
    exacts [Value.mem_strays _ .fail fun _ => .append memberless_lineBreak (.fail _), by simp]

theorem orderingItems_of_slots : ∀ s ∈ c.orderingItems v, s.Memberless := by
  cases v with
  | list l =>
    rw [Context.orderingItems, orderings_eq]
    exact items (List.forall_iff_forall_mem.1 h) fun _ hv => hv.ordering
  | _ => rw [Context.orderingItems]; exacts [Value.mem_strays _ .fail fun _ => .fail _, by simp]

theorem catchItems_of_slots : ∀ s ∈ c.catchItems v, s.Memberless := by
  cases v with
  | list l =>
    rw [Context.catchItems, catchClauses_eq]
    exact items (List.forall_iff_forall_mem.1 h) fun _ hv => hv.catchClause
  | _ =>
    rw [Context.catchItems]
    exacts [Value.mem_strays _ .fail fun _ =>
      .append (.append memberless_lineBreak (memberless_text _)) (.fail _), by simp]

theorem switchItems_of_slots (subject : Value) : ∀ s ∈ c.switchItems subject v, s.Memberless := by
  cases v with
  | list l =>
    rw [Context.switchItems, switchCases_eq]
    exact items (List.forall_iff_forall_mem.1 h) fun _ hv => hv.switchCase subject
  | _ => rw [Context.switchItems]; exacts [Value.mem_strays _ .fail fun _ => .fail _, by simp]

theorem caseLabels_of_slots (subject : Value) {whole : Script} (hw : whole.Memberless) :
    (c.caseLabels subject whole v).Memberless := by
  unfold Context.caseLabels
  split
  · simp [hw, h.1.caseLabels subject h.1.exprSlot, h.2.2.caseLabels subject h.2.2.exprSlot,
      h.2.2.exprSlot]
  · simp [hw]

theorem switchCase_of_slots (subject : Value) : (c.switchCase subject v).Memberless := by
  unfold Context.switchCase
  split
  · simp [h.2.caseLabels subject h.2.exprSlot, h.1.stmtSlot]
  · next body =>
    have hbody : (c.stmtSlot body).Memberless := h.stmtSlot
    simp [hbody]
  · exact .fail _

theorem ordering_of_slots : (c.ordering v).Memberless := by
  unfold Context.ordering
  split
  · simp [h.1.exprSlot]
  · exact .fail _

theorem queryOperation_of_slots : (c.queryOperation v).Memberless := by
  unfold Context.queryOperation
  split
  · next value =>
    have hvalue : (c.exprSlot value).Memberless := h.exprSlot
    simp [hvalue]
  · simp [h.1.exprSlot, h.2.exprSlot]
  · exact .fail _

theorem queryBody_of_slots : (c.queryBody v).Memberless := by
  unfold Context.queryBody
  split
  · have hclauses := memberless_concat.2 h.2.1.queryClauseItems
    simp [hclauses, h.1.queryOperation, h.2.2.queryContinuation]
  · exact .fail _

variable (hb : v.binders.Forall (·.member? = none))

include hb

theorem querySource_of_slots : (c.querySource v).Memberless := by
  unfold Context.querySource
  split
  · simp [c.program.variableDeclaration_memberless hb, h.2.exprSlot]
  · simp [c.program.variableDeclaration_memberless hb, h.2.exprSlot]
  · simp [c.program.variableDeclaration_memberless hb, h.2.1.exprSlot]
  · simp [c.program.variableDeclaration_memberless hb, h.2.1.exprSlot]
  · simp

theorem queryClause_of_slots : (c.queryClause v).Memberless := by
  unfold Context.queryClause
  split
  · simp [c.program.variableDeclaration_memberless hb, h.2.exprSlot]
  · next test =>
    have htest : (c.exprSlot test).Memberless := h.exprSlot
    simp [htest]
  · simp [c.program.variableDeclaration_memberless hb, h.2.exprSlot]
  · obtain ⟨-, hsource, hon, hequals, -⟩ := h
    simp [c.program.variableDeclaration_memberless hb.1,
      c.program.variableDeclaration_memberless hb.2, hsource.exprSlot, hon.exprSlot,
      hequals.exprSlot]
  · next orderings =>
    have horderings := memberless_commaSeparated.2 h.orderingItems
    exact .append (memberless_text _) horderings
  · exact .fail _

theorem queryContinuation_of_slots : (c.queryContinuation v).Memberless := by
  unfold Context.queryContinuation
  split
  · exact .empty
  · simp [c.program.variableDeclaration_memberless hb, h.2.queryBody]
  · simp [c.program.variableDeclaration_memberless hb, h.1.queryBody]
  · simp [c.program.variableDeclaration_memberless hb, h.2.2.queryBody]
  · simp [c.program.variableDeclaration_memberless hb, h.2.2.queryBody]
  · simp

theorem catchClause_of_slots : (c.catchClause v).Memberless := by
  unfold Context.catchClause
  split
  · simp [c.catchHead_memberless hb, h.1.stmtSlot, h.2.2.exprSlot]
  · simp

theorem of_slots : c.CodeMemberless v where
  exprSlot := by
    unfold Context.exprSlot
    split
    · exact .fail _
    · exact .delayed (expr hb h)
    · exact .fail _
  exprItems := exprItems_of_slots h
  property? := property?_of_slots h
  access? := access?_of_slots h
  items? := by
    unfold Context.items?
    split
    · rintro l ⟨⟩; exact h.exprItems
    · rintro l ⟨⟩; exact h.exprItems
    · nofun
  pointee? := by
    unfold Context.pointee?
    split
    · rintro s ⟨⟩; exact h.exprSlot
    · nofun
  counter? target _ hw := counter?_of_slots h target hw
  querySource := querySource_of_slots h hb
  queryClause := queryClause_of_slots h hb
  queryClauseItems := queryClauseItems_of_slots h
  ordering := ordering_of_slots h
  orderingItems := orderingItems_of_slots h
  queryOperation := queryOperation_of_slots h
  queryBody := queryBody_of_slots h
  queryContinuation := queryContinuation_of_slots h hb
  stmtSlot := by
    unfold Context.stmtSlot
    split
    · exact .fail _
    · exact .delayed (stmt h)
    · exact .fail _
  stmtItems := stmtItems_of_slots h
  catchClause := catchClause_of_slots h hb
  catchItems := catchItems_of_slots h
  caseLabels subject _ hw := caseLabels_of_slots h subject hw
  switchCase := switchCase_of_slots h
  switchItems := switchItems_of_slots h

end

end CodeMemberless

/-- Where variables are bound to variables only, no code declares a member, in whatever role. -/
theorem code_memberless (v : Value) (hv : v.BindsLocals) : c.CodeMemberless v := by
  induction v using Value.slot_induction with
  | slots v ih =>
    obtain ⟨hbinders, hslots⟩ := (Value.bindsLocals_iff v).1 hv
    exact .of_slots (List.forall_iff_forall_mem.2 fun w hw => ih w hw (hslots w hw))
      (List.forall_iff_forall_mem.2 hbinders)

end Context

end Scribe
