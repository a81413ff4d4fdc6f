import Scribe.Proofs.Bracketless
import Scribe.Proofs.CodeRoles

/-!
# Brackets of types, expressions and statements nest

Where neither the program nor the tree has brackets in its texts, every part of rendered code closes
all brackets that it opens: `Context.exprSlot_nests` and `Context.stmtSlot_nests`, by recursion on
the trees.
-/

namespace Scribe

open Script Scribe.Bracket

/-! ### Names -/

theorem Value.IsFree.mapText {v : Value} {f : String → String}
    (hf : ∀ t, Free t.toList → Free (f t).toList) (h : v.IsFree) : (v.mapText f).IsFree := by
  cases v with
  | scalar s => exact Scalar.free_mapText hf h
  | _ => exact h

theorem Value.IsFree.asName {v : Value} (h : v.IsFree) {s : Scalar} (hs : v.asName = .ok s) :
    Free s.plain.toList := by
  unfold Value.asName at hs
  split at hs
  · cases hs; exact h
  · cases hs

/-- The variable that is assigned to stands in the assignment. -/
theorem Value.Bracketless.assignedVariable {v bound : Value} (h : v.Bracketless)
    (hb : v.assignedVariable? = some bound) : bound.Bracketless := by
  unfold assignedVariable? at hb
  split at hb
  · cases hb
    exact h.slots.1.slots
  · cases hb
    exact h.slots.1.slots
  · cases hb

namespace Script

variable {name : Value}

theorem declaration_nests (h : name.IsFree) (target : Option Target) :
    Nests (declaration name target) :=
  .given fun _ hs => .token (Scalar.free_mapText (fun _ => Identifier.free_declared) (h.asName hs))

theorem reference_nests (h : name.IsFree) (tooltip : String) (target : Target) :
    Nests (reference name tooltip target) :=
  .given fun _ hs => .token (Scalar.free_mapText (fun _ => Identifier.free_referenced) (h.asName hs))

theorem content_nests {v : Value} (h : v.IsFree) : Nests (content v) := by
  unfold content
  split
  · exact .free h
  · exact .token h
  · exact .fail _

theorem comment_nests {lines : List String} (h : ∀ line ∈ lines, Free line.toList) :
    Nests (Script.comment lines) := by
  unfold Script.comment
  split
  · exact .text rfl
  · next line => exact .free (.toList_append (by decide) (h line (List.mem_singleton_self _)))
  · refine (((Turns.text rfl).append .lineBreak).append (.concat fun s hs => ?_)).append (.text rfl)
    obtain ⟨line, hline, rfl⟩ := List.mem_map.1 hs
    exact Turns.append (.free (h line hline)) .lineBreak

end Script

namespace Program

variable {p : Program} (hp : p.Bracketless)

include hp

/-- Names of entities and of marked statements have no brackets. -/
theorem Bracketless.named {v : Value} (hv : v.Bracketless) {named : Named}
    (h : p.named? v = some named) : named.name.IsFree := by
  unfold named? at h
  split at h
  · cases h; exact hp.name _
  · cases h; exact hv.node
  · cases h; exact hv.node
  · cases h

omit hp in
theorem bracketless_entity (e : Entity) : (Value.entity e).Bracketless :=
  (Value.bracketless_iff _).2 ⟨trivial, nofun⟩

theorem Bracketless.scopeName {t : TypeId} {scope : Scalar}
    (h : (p.scope t).bind Value.asName = .ok scope) : Free scope.plain.toList := by
  obtain ⟨v, hs, hv⟩ := Except.bind_eq_ok h
  exact (hp.scope hs).asName hv

theorem Bracketless.typeName_nests (type : Value) : Nests (p.typeName type) := by
  unfold typeName
  split
  · exact .given fun definition _ => .given fun scope hs => .token (free_shownName _ (hp.scopeName hs))
  · exact .fail _

omit hp

mutual

theorem typeSlot_nests (hp : p.Bracketless) (v : Value) (hv : v.Bracketless) :
    Nests (p.typeSlot v) := by
  cases v with
  | scalar s => cases s <;> exact .fail _
  | entity e =>
    obtain ⟨kind, i⟩ := e
    cases kind with
    | type => exact hp.typeName_nests (.entity ⟨.type, i⟩)
    | genericParameter => exact content_nests (hp.name ⟨.genericParameter, i⟩)
    | _ => exact .fail _
  | type tree => exact typeTree_nests hp tree hv
  | _ => exact .fail _
termination_by structural v

theorem typeTree_nests (hp : p.Bracketless) :
    ∀ tree : TypeTree, (Value.type tree).Bracketless → Nests (p.typeTree tree)
  | .bare, _ => .fail _
  | .array element dimensions, hv => by
    obtain ⟨he, hd⟩ := hv.slots
    refine (typeSlot_nests hp element he).append (.given fun inner hi => .text ?_)
    have hinner := (Value.free_dimensionsText hi hd).scan [.square]
    rw [String.toList_append, String.toList_append]
    exact scan_trans (scan_trans rfl hinner) rfl
  | .pointer element, hv => (typeSlot_nests hp element hv.slots).append (.text rfl)
  | .reference element, hv => typeSlot_nests hp element hv.slots
  | .required element modifier, hv | .optional element modifier, hv => by
    obtain ⟨he, -⟩ := hv.slots
    exact (((typeSlot_nests hp element he).append (.text rfl)).append
      (hp.typeName_nests modifier).inside).append (.text rfl)
  | .functionPointer result parameters, hv => by
    obtain ⟨hr, hps⟩ := hv.slots
    exact (((Turns.ite (.text rfl) (typeSlot_nests hp result hr)).append (.text rfl)).append
      (Turns.commaSeparated (typeItems_nests hp parameters hps)).inside).append (.text rfl)
  | .genericArgument _ target, hv => by
    obtain ⟨-, ht⟩ := hv.slots
    exact .ite (.fail _) (typeSlot_nests hp target ht)
termination_by structural tree => tree

theorem typeItems_nests (hp : p.Bracketless) (v : Value) (hv : v.Bracketless) :
    ∀ s ∈ p.typeItems v, Nests s := by
  cases v with
  | list items => exact typeSlots_nests hp items fun u hu => hv.slot hu
  | _ => rw [typeItems]; exacts [Value.mem_strays _ .fail fun _ => .fail _, by simp]
termination_by structural v

theorem typeSlots_nests (hp : p.Bracketless) :
    ∀ vs : List Value, (∀ u ∈ vs, u.Bracketless) → ∀ s ∈ p.typeSlots vs, Nests s
  | [], _ => by simp [typeSlots]
  | first :: rest, h => by
    rw [typeSlots, List.forall_mem_cons]
    obtain ⟨hf, hr⟩ := List.forall_mem_cons.1 h
    exact ⟨typeSlot_nests hp first hf, typeSlots_nests hp rest hr⟩
termination_by structural vs => vs

end

include hp

omit hp in
theorem parameterName_free {name : Value} (h : name.IsFree) : (parameterName name).IsFree := by
  unfold parameterName
  split_ifs
  · exact h
  · exact (by decide : Free "A".toList)

theorem parameterList_nests (parameters : Value) : Nests (p.parameterList parameters) := by
  refine .given fun parameters _ => .commaSeparated fun s hs => ?_
  obtain ⟨v, -, rfl⟩ := List.mem_map.1 hs
  unfold parameterDeclaration
  split
  · exact declaration_nests (parameterName_free (hp.name ⟨.parameter, _⟩)) _
  · exact .fail _

theorem ownerOf_nests (owner : Value) : Nests (p.ownerOf owner) := by
  unfold ownerOf
  split
  · exact .empty
  · exact .given fun scope hs => .free (.toList_append (hp.scopeText hs) (by decide))
  · exact .fail _

theorem memberOf_nests (member : Value) : Nests (p.memberOf member) :=
  .given fun _ _ => .ite .empty ((hp.typeName_nests _).append (.text rfl))

theorem fieldName_nests (field : Value) : Nests (p.fieldName field) := by
  unfold fieldName
  split
  · exact .given fun _ _ => reference_nests (hp.name ⟨.field, _⟩) _ _
  · exact .fail _

theorem methodReference_nests (id leadsTo : MethodId) : Nests (p.methodReference id leadsTo) :=
  .given fun _ _ => reference_nests (hp.name id.entity) _ _

theorem methodName_nests (method : Value) : Nests (p.methodName method) := by
  unfold methodName
  split
  · split
    · exact methodReference_nests hp _ _
    · exact methodReference_nests hp _ _
    · exact .fail _
  · exact .fail _

theorem memberName_nests (member : Value) : Nests (p.memberName member) := by
  unfold memberName
  split
  · exact .given fun _ _ => reference_nests (hp.name ⟨.property, _⟩) _ _
  · exact fieldName_nests hp member

theorem eventName_nests (event : Value) : Nests (p.eventName event) := by
  unfold eventName
  split
  · exact .given fun _ _ => reference_nests (hp.name ⟨.event, _⟩) _ _
  · exact .fail _

theorem accessorName_nests (accessor : Value) : Nests (p.accessorName accessor) := by
  unfold accessorName
  split
  · exact methodReference_nests hp _ _
  · exact .fail _

theorem argumentUse_nests {parameter : Value} (hv : parameter.Bracketless) :
    Nests (p.argumentUse parameter) := by
  unfold argumentUse
  split
  · next hn => exact .given fun _ _ => reference_nests (parameterName_free (hp.named hv hn)) _ _
  · exact .fail _

theorem variableUse_nests {bound : Value} (hv : bound.Bracketless) : Nests (p.variableUse bound) := by
  unfold variableUse
  split
  · next hn => exact .given fun _ _ => reference_nests (hp.named hv hn) _ _
  · exact .fail _

theorem variableDeclaration_nests {bound : Value} (hv : bound.Bracketless) :
    Nests (p.variableDeclaration bound) := by
  unfold variableDeclaration
  split
  · next hn => exact declaration_nests (hp.named hv hn) _
  · exact .fail _

theorem createdType_nests (constructor : Value) {type : Value} (hv : type.Bracketless) :
    Nests (p.createdType constructor type) := by
  unfold createdType
  split
  · refine .ite (typeSlot_nests hp _ hv) ?_
    unfold constructedType
    split
    · refine .given fun definition _ => .given fun _ _ => .given fun scope hs => .token ?_
      exact free_shownName _ (hp.scopeName hs)
    · exact .fail _
  · exact typeSlot_nests hp _ hv

theorem accessorCall_nests (property : PropertyId) (accessor : Value) {target : Script}
    {arguments : List Script} (ht : Nests target) (ha : ∀ s ∈ arguments, Nests s) :
    Nests (p.accessorCall property accessor target arguments) := by
  refine .ite (.fail _) ?_
  exact (((ht.append (accessorName_nests hp accessor)).append (.text rfl)).append
    (Turns.commaSeparated ha).inside).append (.text rfl)

end Program

namespace Context

variable {c : Context} (hp : c.program.Bracketless)

/-- The parts of an access to a property nest. -/
structure Access.Nests (a : Access) : Prop where
  target : a.target.Nests
  arguments : ∀ s ∈ a.arguments, s.Nests

theorem newArray_nests (initializer : Value) (isZero : Bool) {items : Option (List Script)}
    {dimensions : List Script} (hi : ∀ l ∈ items, ∀ s ∈ l, Nests s)
    (hd : ∀ s ∈ dimensions, Nests s) : Nests (newArray initializer isZero items dimensions) := by
  unfold newArray
  split
  · exact .block (hi _ rfl)
  · exact .ite (.fail _) (.ite (.text rfl) (.between rfl (.commaSeparated hd) rfl))

theorem newMembers_nests (initializer : Value) {items : Option (List Script)}
    (hi : ∀ l ∈ items, ∀ s ∈ l, Nests s) : Nests (newMembers initializer items) := by
  unfold newMembers
  split
  · exact .ite ((Turns.text rfl).append (.block (hi _ rfl))) .empty
  · exact .ite .empty (.fail _)

theorem acquire_nests (resource : Value) {rendered : Script} (h : Nests rendered) :
    Nests (acquire resource rendered) := .ite h.simple .empty

theorem arguments_nests {a b d : Script} (ha : Nests a) (hb : Nests b) (hd : Nests d) :
    ∀ s ∈ [a, b, d], Nests s := by
  simp only [List.forall_mem_cons]
  exact ⟨ha, hb, hd, nofun⟩

include hp

theorem read_nests {access : Access} (h : access.Nests) : Nests (c.read access) := by
  unfold read
  split
  · exact Program.accessorCall_nests hp _ _ h.target h.arguments
  · exact .fail _

theorem write_nests {access : Access} (h : access.Nests) {value : Script} (hv : Nests value) :
    Nests (c.write access value) := by
  unfold write
  split
  · refine Program.accessorCall_nests hp _ _ h.target ?_
    rw [List.forall_mem_append, List.forall_mem_singleton]
    exact ⟨h.arguments, hv⟩
  · exact .fail _

theorem assignment_nests {access : Option Access} {target value : Script}
    (ha : ∀ a ∈ access, a.Nests) (ht : Nests target) (hv : Nests value) :
    Nests (c.assignment access target value) := by
  unfold assignment
  split
  · exact write_nests hp (ha _ rfl) hv
  · exact (ht.append (.text rfl)).append hv

theorem functionBody_nests (body : Value) {statements : Script} (h : Nests statements) :
    Nests (c.functionBody body statements) := by
  have hdeclarations : Nests (c.declarations body) := by
    refine .given fun ids _ => (Turns.silent rfl).append (.concat fun s hs => ?_)
    obtain ⟨id, -, rfl⟩ := List.mem_map.1 hs
    exact (((Turns.text rfl).append (Program.variableDeclaration_nests hp
      (Program.bracketless_entity _))).append (.text rfl)).append .lineBreak
  exact .ite ((((Turns.silent rfl).append hdeclarations).append h.body).append (.silent rfl)) (.fail _)

theorem catchHead_nests {bound : Value} (hv : bound.Bracketless) : Nests (c.catchHead bound) :=
  Turns.lineBreak.append
    (.between rfl (.ite (.text rfl) (Program.variableDeclaration_nests hp hv)) rfl)

theorem release_nests {resource : Value} (hv : resource.Bracketless) {rendered : Script}
    (h : Nests rendered) : Nests (c.release resource rendered) := by
  refine (Turns.append ?_ (.text rfl)).append .lineBreak
  split
  · next bound hb => exact (Program.variableUse_nests hp (hv.assignedVariable hb)).append (.text rfl)
  · exact .asTarget _ h

omit hp

mutual

theorem exprSlot_nests (hp : c.program.Bracketless) (v : Value) (hv : v.Bracketless) :
    Nests (c.exprSlot v) := by
  cases v with
  | scalar s => cases s <;> exact .fail _
  | expr e => exact expr_nests hp e hv
  | _ => exact .fail _
termination_by structural v

theorem exprItems_nests (hp : c.program.Bracketless) (v : Value) (hv : v.Bracketless) :
    ∀ s ∈ c.exprItems v, Nests s := by
  cases v with
  | list items => exact exprSlots_nests hp items fun u hu => hv.slot hu
  | _ => rw [exprItems]; exacts [Value.mem_strays _ .fail fun _ => .fail _, by simp]
termination_by structural v

theorem exprSlots_nests (hp : c.program.Bracketless) :
    ∀ vs : List Value, (∀ u ∈ vs, u.Bracketless) → ∀ s ∈ c.exprSlots vs, Nests s
  | [], _ => by simp [exprSlots]
  | first :: rest, h => by
    rw [exprSlots, List.forall_mem_cons]
    obtain ⟨hf, hr⟩ := List.forall_mem_cons.1 h
    exact ⟨exprSlot_nests hp first hf, exprSlots_nests hp rest hr⟩
termination_by structural vs => vs

theorem property?_nests (hp : c.program.Bracketless) (v : Value) (hv : v.Bracketless) :
    ∀ a ∈ c.property? v, a.Nests := by
  cases v with
  | expr e =>
    cases e with
    | property property target =>
      rintro a ⟨⟩
      obtain ⟨-, ht⟩ := hv.slots
      exact ⟨.asTarget _ (exprSlot_nests hp target ht), nofun⟩
    | _ => rintro a ⟨⟩
  | _ => rintro a ⟨⟩
termination_by structural v

theorem access?_nests (hp : c.program.Bracketless) (v : Value) (hv : v.Bracketless) :
    ∀ a ∈ c.access? v, a.Nests := by
  cases v with
  | expr e =>
    cases e with
    | property property target =>
      rintro a ⟨⟩
      obtain ⟨-, ht⟩ := hv.slots
      exact ⟨.asTarget _ (exprSlot_nests hp target ht), nofun⟩
    | propertyIndexer target indices =>
      intro a ha
      obtain ⟨ht, hi⟩ := hv.slots
      rw [access?, Option.mem_def, Option.map_eq_some_iff] at ha
      obtain ⟨access, haccess, rfl⟩ := ha
      exact ⟨(property?_nests hp target ht access haccess).target, exprItems_nests hp indices hi⟩
    | _ => rintro a ⟨⟩
  | _ => rintro a ⟨⟩
termination_by structural v

theorem items?_nests (hp : c.program.Bracketless) (v : Value) (hv : v.Bracketless) :
    ∀ l ∈ c.items? v, ∀ s ∈ l, Nests s := by
  cases v with
  | expr e =>
    cases e with
    | block items => rintro l ⟨⟩; exact exprItems_nests hp items hv.slots
    | _ => rintro l ⟨⟩
  | clause k =>
    cases k with
    | order items => rintro l ⟨⟩; exact exprItems_nests hp items hv.slots
    | _ => rintro l ⟨⟩
  | _ => rintro l ⟨⟩
termination_by structural v

theorem pointee?_nests (hp : c.program.Bracketless) (v : Value) (hv : v.Bracketless) :
    ∀ s ∈ c.pointee? v, Nests s := by
  cases v with
  | expr e =>
    cases e with
    | addressOf operand => rintro s ⟨⟩; exact exprSlot_nests hp operand hv.slots
    | _ => rintro s ⟨⟩
  | _ => rintro s ⟨⟩
termination_by structural v

theorem counter?_nests (hp : c.program.Bracketless) (target : Value) {whole : Script}
    (hw : Nests whole) (v : Value) (hv : v.Bracketless) :
    ∀ s ∈ c.counter? target whole v, Nests s := by
  cases v with
  | expr e =>
    cases e with
    | binary left operator right =>
      intro s hs
      obtain ⟨-, -, hr⟩ := hv.slots
      rw [counter?, Option.mem_def, Option.map_eq_some_iff] at hs
      obtain ⟨call, hcall, rfl⟩ := hs
      have hopen : Turns [] [.round] (text call) := by
        unfold counterCall? at hcall
        split_ifs at hcall <;> cases hcall <;> exact .text rfl
      exact (((hopen.append hw.inside).append (.text rfl)).append
        (exprSlot_nests hp right hr).inside).append (.text rfl)
    | _ => rintro s ⟨⟩
  | _ => rintro s ⟨⟩
termination_by structural v

theorem expr_nests (hp : c.program.Bracketless) :
    ∀ e : Expr, (Value.expr e).Bracketless → Nests (c.expr e)
  | .bare, _ => .fail _
  | .literal value kind, hv => .given fun _ ht => .free (Literal.free_text ht hv.node)
  | .assign target value, hv => by
    obtain ⟨ht, hval⟩ := hv.slots
    have htarget := exprSlot_nests hp target ht
    rw [expr]
    cases h : c.counter? target (c.exprSlot target) value with
    | some s => exact counter?_nests hp target htarget value hval s h
    | none =>
      exact assignment_nests hp (access?_nests hp target ht) htarget (exprSlot_nests hp value hval)
  | .typeOf type, hv => .between rfl (Program.typeSlot_nests hp type hv.slots) rfl
  | .fieldOf field type, hv => by
    obtain ⟨-, ht⟩ := hv.slots
    exact .between rfl (((Program.memberOf_nests hp field).append
      (Program.fieldName_nests hp field)).append
      (.optionally _ ((Turns.text rfl).append (Program.typeSlot_nests hp type ht)))) rfl
  | .methodOf method type, hv => by
    obtain ⟨-, ht⟩ := hv.slots
    exact .between rfl (((Program.memberOf_nests hp method).append
      (Program.methodName_nests hp method)).append
      (.optionally _ ((Turns.text rfl).append (Program.typeSlot_nests hp type ht)))) rfl
  | .initMember member value, hv => by
    obtain ⟨-, hval⟩ := hv.slots
    exact ((Program.memberName_nests hp member).append (.text rfl)).append
      (exprSlot_nests hp value hval)
  | .typeName type, _ => hp.typeName_nests type
  | .field field target, hv => by
    obtain ⟨-, ht⟩ := hv.slots
    exact (Turns.asTarget _ (exprSlot_nests hp target ht)).append (Program.fieldName_nests hp field)
  | .event event target, hv => by
    obtain ⟨-, ht⟩ := hv.slots
    exact (Turns.asTarget _ (exprSlot_nests hp target ht)).append (Program.eventName_nests hp event)
  | .method method target, hv => by
    obtain ⟨-, ht⟩ := hv.slots
    exact (Turns.asTarget _ (exprSlot_nests hp target ht)).append
      (Program.methodName_nests hp method)
  | .property property target, hv => by
    obtain ⟨-, ht⟩ := hv.slots
    exact read_nests hp ⟨.asTarget _ (exprSlot_nests hp target ht), nofun⟩
  | .argumentList, _ | .base, _ | .this, _ => .text rfl
  | .stackAllocate type size, hv => by
    obtain ⟨ht, hs⟩ := hv.slots
    exact ((Turns.text rfl).append (Program.typeSlot_nests hp type ht)).append
      (exprSlot_nests hp size hs).bracketed
  | .block items, hv => .block (exprItems_nests hp items hv.slots)
  | .arrayCreate _ dimensions initializer, hv => by
    obtain ⟨-, hd, hi⟩ := hv.slots
    exact newArray_nests _ _ (items?_nests hp initializer hi) (exprItems_nests hp dimensions hd)
  | .unary operator operand, hv => by
    obtain ⟨-, ho⟩ := hv.slots
    exact .unary _ (exprSlot_nests hp operand ho)
  | .binary left operator right, hv => by
    obtain ⟨hl, -, hr⟩ := hv.slots
    exact .binary _ (exprSlot_nests hp left hl) (exprSlot_nests hp right hr)
  | .tryCast operand type, hv | .canCast operand type, hv => by
    obtain ⟨ho, ht⟩ := hv.slots
    exact .parenthesized (((exprSlot_nests hp operand ho).append (.text rfl)).append
      (Program.typeSlot_nests hp type ht))
  | .cast operand _, hv => by
    obtain ⟨ho, -⟩ := hv.slots
    exact exprSlot_nests hp operand ho
  | .condition condition yes no, hv => by
    obtain ⟨hc, hy, hn⟩ := hv.slots
    exact .parenthesized (((((exprSlot_nests hp condition hc).append (.text rfl)).append
      (exprSlot_nests hp yes hy)).append (.text rfl)).append (exprSlot_nests hp no hn))
  | .coalesce subject fallback, hv => by
    obtain ⟨hs, hf⟩ := hv.slots
    have hsubject := exprSlot_nests hp subject hs
    exact ((((((Turns.text rfl).append hsubject.inside).append (.text rfl)).append
      hsubject.inside).append (.text rfl)).append (exprSlot_nests hp fallback hf).inside).append
      (.text rfl)
  | .delegateCreate type method target, hv => by
    obtain ⟨ht, -, hg⟩ := hv.slots
    exact (Program.typeSlot_nests hp type ht).append (.between rfl
      ((Turns.optionally _ ((exprSlot_nests hp target hg).append (.text rfl))).append
        (Program.methodName_nests hp method)) rfl)
  | .function parameters body _, hv => by
    obtain ⟨-, hb, -⟩ := hv.slots
    have hbody := functionBody_nests hp body (.optionally body (stmtSlot_nests hp body hb))
    exact (((((Turns.text rfl).append (Program.parameterList_nests hp parameters).inside).append
      (.text rfl)).append Turns.lineBreak.inside).append hbody.indented.inside).append (.text rfl)
  | .lambda parameters body, hv => by
    obtain ⟨hps, hb⟩ := hv.slots
    have hlist : Nests (given parameters.items fun parameters =>
        commaSeparated (parameters.map c.program.variableDeclaration)) := by
      refine .given fun vs hvs => .commaSeparated fun s hs => ?_
      obtain ⟨v, hin, rfl⟩ := List.mem_map.1 hs
      exact Program.variableDeclaration_nests hp (hps.items hvs v hin)
    exact ((((Turns.text rfl).append hlist.inside).append (.text rfl)).append
      (exprSlot_nests hp body hb).inside).append (.text rfl)
  | .argument parameter, hv => Program.argumentUse_nests hp hv.slots
  | .declare bound, hv | .variable bound, hv => Program.variableUse_nests hp hv.slots
  | .propertyIndexer target indices, hv => by
    obtain ⟨ht, hi⟩ := hv.slots
    rw [expr]
    cases h : c.property? target with
    | some access =>
      exact read_nests hp ⟨(property?_nests hp target ht access h).target,
        exprItems_nests hp indices hi⟩
    | none => exact .fail _
  | .arrayIndexer target indices, hv => by
    obtain ⟨ht, hi⟩ := hv.slots
    refine (exprSlot_nests hp target ht).append (.concat fun s hs => ?_)
    obtain ⟨t, hin, rfl⟩ := List.mem_map.1 hs
    exact .bracketed (exprItems_nests hp indices hi t hin)
  | .invoke method arguments, hv => by
    obtain ⟨hm, ha⟩ := hv.slots
    exact (Turns.asCallee _ (exprSlot_nests hp method hm)).append
      (.parenthesized (.commaSeparated (exprItems_nests hp arguments ha)))
  | .delegateInvoke target arguments, hv => by
    obtain ⟨ht, ha⟩ := hv.slots
    exact (exprSlot_nests hp target ht).append
      (.parenthesized (.commaSeparated (exprItems_nests hp arguments ha)))
  | .objectCreate type constructor arguments initializer, hv => by
    obtain ⟨ht, -, ha, hi⟩ := hv.slots
    have harguments := Turns.commaSeparated (exprItems_nests hp arguments ha)
    exact (((Turns.text rfl).append (Program.createdType_nests hp constructor ht).inside).append
      (((Turns.text rfl).append harguments.inside).append (.text rfl))).append
      (newMembers_nests _ (items?_nests hp initializer hi))
  | .addressOf operand, hv | .addressReference operand, hv | .addressOut operand, hv =>
    .bracketed (exprSlot_nests hp operand hv.slots)
  | .dereference operand, hv => by
    rw [expr]
    cases h : c.pointee? operand with
    | some s => exact pointee?_nests hp operand hv.slots s h
    | none => exact exprSlot_nests hp operand hv.slots
  | .sizeOf type, hv | .genericDefault type, hv =>
    .between rfl (Program.typeSlot_nests hp type hv.slots) rfl
  | .typeOfTyped operand, hv | .createTyped operand, hv =>
    .between rfl (exprSlot_nests hp operand hv.slots) rfl
  | .valueOfTyped operand type, hv => by
    obtain ⟨ho, ht⟩ := hv.slots
    exact .between rfl ((exprSlot_nests hp operand ho).append
      (.optionally _ ((Turns.text rfl).append (Program.typeSlot_nests hp type ht)))) rfl
  | .snippet code, hv => content_nests hv.node
  | .query source body, hv => by
    obtain ⟨hs, hb⟩ := hv.slots
    exact .parenthesized ((querySource_nests hp source hs).append
      (Turns.indented (queryBody_nests hp body hb)))
termination_by structural e => e

theorem querySource_nests (hp : c.program.Bracketless) (v : Value) (hv : v.Bracketless) :
    Nests (c.querySource v) := by
  have binds {bound source : Value} (hb : bound.Bracketless) (hs : Nests (c.exprSlot source)) :
      Nests (text "from " ++ c.program.variableDeclaration bound ++ text " in " ++
        c.exprSlot source) :=
    (((Turns.text rfl).append (Program.variableDeclaration_nests hp hb)).append (.text rfl)).append hs
  have none (f : Fault) : Nests (text "from " ++ fail f) := (Turns.text rfl).append (.fail f)
  cases v with
  | clause k =>
    cases k with
    | «from» bound source | «let» bound source =>
      obtain ⟨hb, hs⟩ := hv.slots
      exact binds hb (exprSlot_nests hp source hs)
    | _ => exact none _
  | stmt s =>
    cases s with
    | forEach bound source body | fixed bound source body =>
      obtain ⟨hb, hs, -⟩ := hv.slots
      exact binds hb (exprSlot_nests hp source hs)
    | _ => exact none _
  | _ => exact none _
termination_by structural v

theorem queryClause_nests (hp : c.program.Bracketless) (v : Value) (hv : v.Bracketless) :
    Nests (c.queryClause v) := by
  cases v with
  | clause k =>
    cases k with
    | «from» bound source | «let» bound source =>
      obtain ⟨hb, hs⟩ := hv.slots
      exact (((Turns.text rfl).append (Program.variableDeclaration_nests hp hb)).append
        (.text rfl)).append (exprSlot_nests hp source hs)
    | «where» condition => exact (Turns.text rfl).append (exprSlot_nests hp condition hv.slots)
    | join bound source on equality into =>
      obtain ⟨hb, hs, ho, he, hi⟩ := hv.slots
      exact ((((((((Turns.text rfl).append (Program.variableDeclaration_nests hp hb)).append
        (.text rfl)).append (exprSlot_nests hp source hs)).append (.text rfl)).append
        (exprSlot_nests hp on ho)).append (.text rfl)).append (exprSlot_nests hp equality he)).append
        (.optionally _ ((Turns.text rfl).append (Program.variableDeclaration_nests hp hi)))
    | order orderings =>
      exact (Turns.text rfl).append (.commaSeparated (orderingItems_nests hp orderings hv.slots))
    | _ => exact .fail _
  | _ => exact .fail _
termination_by structural v

theorem queryClauseItems_nests (hp : c.program.Bracketless) (v : Value) (hv : v.Bracketless) :
    ∀ s ∈ c.queryClauseItems v, Nests s := by
  cases v with
  | list items => exact queryClauses_nests hp items fun u hu => hv.slot hu
  | _ =>
    rw [queryClauseItems]
    exacts [Value.mem_strays _ .fail fun _ => Turns.lineBreak.append (.fail _), by simp]
termination_by structural v

theorem queryClauses_nests (hp : c.program.Bracketless) :
    ∀ vs : List Value, (∀ u ∈ vs, u.Bracketless) → ∀ s ∈ c.queryClauses vs, Nests s
  | [], _ => by simp [queryClauses]
  | first :: rest, h => by
    rw [queryClauses, List.forall_mem_cons]
    obtain ⟨hf, hr⟩ := List.forall_mem_cons.1 h
    exact ⟨Turns.lineBreak.append (queryClause_nests hp first hf), queryClauses_nests hp rest hr⟩
termination_by structural vs => vs

theorem ordering_nests (hp : c.program.Bracketless) (v : Value) (hv : v.Bracketless) :
    Nests (c.ordering v) := by
  cases v with
  | clause k =>
    cases k with
    | ordering key direction =>
      obtain ⟨hk, -⟩ := hv.slots
      exact (exprSlot_nests hp key hk).append (.ite (.text rfl) .empty)
    | _ => exact .fail _
  | _ => exact .fail _
termination_by structural v

theorem orderingItems_nests (hp : c.program.Bracketless) (v : Value) (hv : v.Bracketless) :
    ∀ s ∈ c.orderingItems v, Nests s := by
  cases v with
  | list items => exact orderings_nests hp items fun u hu => hv.slot hu
  | _ => rw [orderingItems]; exacts [Value.mem_strays _ .fail fun _ => .fail _, by simp]
termination_by structural v

theorem orderings_nests (hp : c.program.Bracketless) :
    ∀ vs : List Value, (∀ u ∈ vs, u.Bracketless) → ∀ s ∈ c.orderings vs, Nests s
  | [], _ => by simp [orderings]
  | first :: rest, h => by
    rw [orderings, List.forall_mem_cons]
    obtain ⟨hf, hr⟩ := List.forall_mem_cons.1 h
    exact ⟨ordering_nests hp first hf, orderings_nests hp rest hr⟩
termination_by structural vs => vs

theorem queryOperation_nests (hp : c.program.Bracketless) (v : Value) (hv : v.Bracketless) :
    Nests (c.queryOperation v) := by
  cases v with
  | clause k =>
    cases k with
    | select value => exact (Turns.text rfl).append (exprSlot_nests hp value hv.slots)
    | group item key =>
      obtain ⟨hi, hk⟩ := hv.slots
      exact (((Turns.text rfl).append (exprSlot_nests hp item hi)).append (.text rfl)).append
        (exprSlot_nests hp key hk)
    | _ => exact .fail _
  | _ => exact .fail _
termination_by structural v

theorem queryBody_nests (hp : c.program.Bracketless) (v : Value) (hv : v.Bracketless) :
    Nests (c.queryBody v) := by
  cases v with
  | clause k =>
    cases k with
    | queryBody operation clauses continuation =>
      obtain ⟨ho, hc, hk⟩ := hv.slots
      exact (((Turns.concat (queryClauseItems_nests hp clauses hc)).append .lineBreak).append
        (queryOperation_nests hp operation ho)).append (queryContinuation_nests hp continuation hk)
    | _ => exact .fail _
  | _ => exact .fail _
termination_by structural v

theorem queryContinuation_nests (hp : c.program.Bracketless) (v : Value) (hv : v.Bracketless) :
    Nests (c.queryContinuation v) := by
  have binds {bound body : Value} (hv : bound.Bracketless) (hb : Nests (c.queryBody body)) :
      Nests (text " into " ++ c.program.variableDeclaration bound ++ c.queryBody body) :=
    ((Turns.text rfl).append (Program.variableDeclaration_nests hp hv)).append hb
  have none (f : Fault) : Nests (text " into " ++ fail f) := (Turns.text rfl).append (.fail f)
  cases v with
  | scalar s =>
    cases s with
    | null => exact .empty
    | _ => exact none _
  | clause k =>
    cases k with
    | continuation bound body =>
      obtain ⟨hb, hs⟩ := hv.slots
      exact binds hb (queryBody_nests hp body hs)
    | «catch» body bound condition =>
      obtain ⟨hs, hb, -⟩ := hv.slots
      exact binds hb (queryBody_nests hp body hs)
    | _ => exact none _
  | stmt s =>
    cases s with
    | forEach bound source body | fixed bound source body =>
      obtain ⟨hb, -, hs⟩ := hv.slots
      exact binds hb (queryBody_nests hp body hs)
    | _ => exact none _
  | _ => exact none _
termination_by structural v

theorem stmtSlot_nests (hp : c.program.Bracketless) (v : Value) (hv : v.Bracketless) :
    Nests (c.stmtSlot v) := by
  cases v with
  | scalar s => cases s <;> exact .fail _
  | stmt s => exact stmt_nests hp s hv
  | _ => exact .fail _
termination_by structural v

theorem stmtItems_nests (hp : c.program.Bracketless) (v : Value) (hv : v.Bracketless) :
    ∀ s ∈ c.stmtItems v, Nests s := by
  cases v with
  | list items => exact stmtSlots_nests hp items fun u hu => hv.slot hu
  | _ => rw [stmtItems]; exacts [Value.mem_strays _ .fail fun _ => .fail _, by simp]
termination_by structural v

theorem stmtSlots_nests (hp : c.program.Bracketless) :
    ∀ vs : List Value, (∀ u ∈ vs, u.Bracketless) → ∀ s ∈ c.stmtSlots vs, Nests s
  | [], _ => by simp [stmtSlots]
  | first :: rest, h => by
    rw [stmtSlots, List.forall_mem_cons]
    obtain ⟨hf, hr⟩ := List.forall_mem_cons.1 h
    exact ⟨stmtSlot_nests hp first hf, stmtSlots_nests hp rest hr⟩
termination_by structural vs => vs

theorem stmt_nests (hp : c.program.Bracketless) :
    ∀ s : Stmt, (Value.stmt s).Bracketless → Nests (c.stmt s)
  | .bare, _ => .fail _
  | .block statements, hv => .concat (stmtItems_nests hp statements hv.slots)
  | .expression expression, hv => .ite .empty (.simple (exprSlot_nests hp expression hv.slots))
  | .goto _ label, hv => .simple ((Turns.text rfl).append (declaration_nests hv.node _))
  | .labeled _ label statement, hv => by
    obtain ⟨-, hs⟩ := hv.slots
    have hlabel : Nests (given label.asName fun name => step (.label name)) :=
      .given fun _ hn => .step (Scalar.free_mapText (fun _ => Identifier.free_declared)
        (Value.IsFree.asName hv.node hn))
    exact ((Turns.silent rfl).append hlabel).append
      (.optionally _ (stmtSlot_nests hp statement hs))
  | .condition condition yes no, hv => by
    obtain ⟨hc, hy, hn⟩ := hv.slots
    exact ((((Turns.silent rfl).append (.text rfl)).append
      (.asCondition _ (exprSlot_nests hp condition hc))).append
      (.braced (.optionally _ (stmtSlot_nests hp yes hy)))).append
      (.optionally _ (.unlessEmpty _ ((Turns.lineBreak.append (.text rfl)).append
        (.braced (stmtSlot_nests hp no hn)))))
  | .return value, hv =>
    .simple ((Turns.text rfl).append
      (.optionally _ ((Turns.text rfl).append (exprSlot_nests hp value hv.slots))))
  | .for start condition increment body, hv => by
    obtain ⟨hs, hc, hi, hb⟩ := hv.slots
    have silent {t : Step} (h : t.chars = []) : Turns [.round] [.round] (step t) :=
      (Turns.silent h).inside
    exact (((((((((((((Turns.silent rfl).append (.text rfl)).append (silent rfl)).append
      (silent rfl)).append (Turns.optionally _ (stmtSlot_nests hp start hs)).inside).append
      (.text rfl)).append (Turns.optionally _ (exprSlot_nests hp condition hc)).inside).append
      (.text rfl)).append (silent rfl)).append
      (Turns.optionally _ (stmtSlot_nests hp increment hi)).inside).append (silent rfl)).append
      (.text rfl)).append (.braced (.optionally _ (stmtSlot_nests hp body hb))))
  | .forEach bound source body, hv | .fixed bound source body, hv => by
    obtain ⟨hb, hs, hbody⟩ := hv.slots
    exact ((((((Turns.silent rfl).append (.text rfl)).append
      (Program.variableUse_nests hp hb).inside).append (.text rfl)).append
      (exprSlot_nests hp source hs).inside).append (.text rfl)).append
      (.braced (.optionally _ (stmtSlot_nests hp body hbody)))
  | .using resource body, hv => by
    obtain ⟨hr, hb⟩ := hv.slots
    have hresource := exprSlot_nests hp resource hr
    have hfinal : Turns [.curly] [.curly] (indented (c.release resource (c.exprSlot resource))) :=
      (release_nests hp hr hresource).indented.inside
    exact ((((((((acquire_nests _ hresource).append (.silent rfl)).append (.text rfl)).append
      (.braced (.optionally _ (stmtSlot_nests hp body hb)))).append .lineBreak).append
      (.text rfl)).append Turns.lineBreak.inside).append hfinal).append (.text rfl) |>.append
      (.silent rfl)
  | .while condition body, hv | .lock condition body, hv => by
    obtain ⟨hc, hb⟩ := hv.slots
    exact (((Turns.silent rfl).append (.text rfl)).append
      (.asCondition _ (exprSlot_nests hp condition hc))).append
      (.braced (.optionally _ (stmtSlot_nests hp body hb)))
  | .do condition body, hv => by
    obtain ⟨hc, hb⟩ := hv.slots
    exact .simple ((((Turns.text rfl).append
      (.braced (.optionally _ (stmtSlot_nests hp body hb)))).append (.text rfl)).append
      (.asCondition _ (exprSlot_nests hp condition hc)))
  | .try body catches fault last, hv => by
    obtain ⟨hb, hc, hf, hl⟩ := hv.slots
    exact ((((((Turns.silent rfl).append (.text rfl)).append
      (.braced (.optionally _ (stmtSlot_nests hp body hb)))).append
      (.concat (catchItems_nests hp catches hc))).append
      (.unlessEmpty _ ((Turns.lineBreak.append (.text rfl)).append
        (.braced ((stmtSlot_nests hp fault hf).append .rethrow))))).append
      (.unlessEmpty _ ((Turns.lineBreak.append (.text rfl)).append
        (.braced (stmtSlot_nests hp last hl))))).append (.silent rfl)
  | .throw value, hv =>
    .simple ((Turns.text rfl).append (.ite (.text rfl) (exprSlot_nests hp value hv.slots)))
  | .attach event listener, hv | .detach event listener, hv => by
    obtain ⟨he, hl⟩ := hv.slots
    exact .simple (((exprSlot_nests hp event he).append (.text rfl)).append
      (exprSlot_nests hp listener hl))
  | .switch subject cases, hv => by
    obtain ⟨hs, hc⟩ := hv.slots
    exact (((((((Turns.silent rfl).append (.text rfl)).append
      (.asCondition _ (exprSlot_nests hp subject hs))).append (.text rfl)).append
      Turns.lineBreak.inside).append
      (Turns.concat (switchItems_nests hp subject cases hc)).inside).append (.text rfl)).append
      (.silent rfl)
  | .break, _ | .continue, _ | .debugBreak, _ => .simple (.text rfl)
  | .memoryCopy first second length, hv | .memoryFill first second length, hv => by
    obtain ⟨hf, hs, hl⟩ := hv.slots
    exact .simple (.between rfl (.commaSeparated (arguments_nests (exprSlot_nests hp first hf)
      (exprSlot_nests hp second hs) (exprSlot_nests hp length hl))) rfl)
  | .comment content, hv => by
    have hcomment : Nests (given (commentLines content) Script.comment) := by
      refine .given fun lines hl => comment_nests ?_
      have hfree : content.IsFree := hv.node
      unfold commentLines at hl
      split at hl
      · cases hl; exact Text.free_lines hfree
      · cases hl
    exact ((Turns.silent rfl).append hcomment).append (.silent rfl)
termination_by structural s => s

theorem catchClause_nests (hp : c.program.Bracketless) (v : Value) (hv : v.Bracketless) :
    Nests (c.catchClause v) := by
  have none (f : Fault) : Nests (lineBreak ++ text "catch (" ++ fail f) :=
    (Turns.lineBreak.append (.text rfl)).append (.fail f)
  cases v with
  | clause k =>
    cases k with
    | «catch» body bound condition =>
      obtain ⟨hb, hv, hc⟩ := hv.slots
      have hbody := Turns.braced (.optionally body (stmtSlot_nests hp body hb))
      have htest : Nests (text "if " ++ condition.asCondition (c.exprSlot condition) ++
          braced (body.optionally (c.stmtSlot body)) ++ lineBreak) :=
        (((Turns.text rfl).append (.asCondition _ (exprSlot_nests hp condition hc))).append
          hbody).append .lineBreak
      exact (catchHead_nests hp hv).append (.ite hbody
        ((((Turns.text rfl).append Turns.lineBreak.inside).append htest.indented.inside).append
          (.text rfl)))
    | _ => exact none _
  | _ => exact none _
termination_by structural v

theorem catchItems_nests (hp : c.program.Bracketless) (v : Value) (hv : v.Bracketless) :
    ∀ s ∈ c.catchItems v, Nests s := by
  cases v with
  | list items => exact catchClauses_nests hp items fun u hu => hv.slot hu
  | _ =>
    rw [catchItems]
    exacts [Value.mem_strays _ .fail fun _ => (Turns.lineBreak.append (.text rfl)).append (.fail _),
      by simp]
termination_by structural v

theorem catchClauses_nests (hp : c.program.Bracketless) :
    ∀ vs : List Value, (∀ u ∈ vs, u.Bracketless) → ∀ s ∈ c.catchClauses vs, Nests s
  | [], _ => by simp [catchClauses]
  | first :: rest, h => by
    rw [catchClauses, List.forall_mem_cons]
    obtain ⟨hf, hr⟩ := List.forall_mem_cons.1 h
    exact ⟨catchClause_nests hp first hf, catchClauses_nests hp rest hr⟩
termination_by structural vs => vs

theorem caseLabels_nests (hp : c.program.Bracketless) (subject : Value) {whole : Script}
    (hw : Nests whole) (v : Value) (hv : v.Bracketless) :
    Nests (c.caseLabels subject whole v) := by
  cases v with
  | expr e =>
    cases e with
    | binary left operator right =>
      obtain ⟨hl, -, hr⟩ := hv.slots
      have hleft := caseLabels_nests hp subject (exprSlot_nests hp left hl) left hl
      have hright := caseLabels_nests hp subject (exprSlot_nests hp right hr) right hr
      exact .ite (hleft.append hright)
        (.ite (.caseLabel (exprSlot_nests hp right hr)) hw.caseLabel)
    | _ => exact hw.caseLabel
  | _ => exact hw.caseLabel
termination_by structural v

theorem switchCase_nests (hp : c.program.Bracketless) (subject : Value) (v : Value)
    (hv : v.Bracketless) : Nests (c.switchCase subject v) := by
  cases v with
  | clause k =>
    cases k with
    | case body condition =>
      obtain ⟨hb, hc⟩ := hv.slots
      have hbody := Turns.optionally body (stmtSlot_nests hp body hb)
      exact (caseLabels_nests hp subject (exprSlot_nests hp condition hc) condition hc).append
        hbody.body.indented
    | default body =>
      have hbody := Turns.optionally body (stmtSlot_nests hp body hv.slots)
      exact ((Turns.text rfl).append .lineBreak).append hbody.body.indented
    | _ => exact .fail _
  | _ => exact .fail _
termination_by structural v

theorem switchItems_nests (hp : c.program.Bracketless) (subject : Value) (v : Value)
    (hv : v.Bracketless) : ∀ s ∈ c.switchItems subject v, Nests s := by
  cases v with
  | list items => exact switchCases_nests hp subject items fun u hu => hv.slot hu
  | _ => rw [switchItems]; exacts [Value.mem_strays _ .fail fun _ => .fail _, by simp]
termination_by structural v

theorem switchCases_nests (hp : c.program.Bracketless) (subject : Value) :
    ∀ vs : List Value, (∀ u ∈ vs, u.Bracketless) → ∀ s ∈ c.switchCases subject vs, Nests s
  | [], _ => by simp [switchCases]
  | first :: rest, h => by
    rw [switchCases, List.forall_mem_cons]
    obtain ⟨hf, hr⟩ := List.forall_mem_cons.1 h
    exact ⟨switchCase_nests hp subject first hf, switchCases_nests hp subject rest hr⟩
termination_by structural vs => vs

end

end Context

end Scribe
