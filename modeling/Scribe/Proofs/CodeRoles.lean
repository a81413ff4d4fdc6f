import Scribe.Proofs.Roles
import Scribe.Render.Code

/-!
# All code fits

`exprSlot_fits` and `stmtSlot_fits`: whatever a slot holds, its script is one of those that
`Script.Fits` lists, as an expression and as statements. The recursion is that of the render; each
case names the pieces that the script is made of.
-/

namespace Scribe

open Script

/-- What is shown of the items of a list, and holds of a fault, holds of all items. -/
theorem Value.mem_strays {P : Script → Prop} (v : Value) {item : Value → Script}
    (hf : ∀ f, P (fail f)) (hi : ∀ w, P (item w)) : ∀ s ∈ v.strays item, P s := by
  intro s hs
  unfold Value.strays at hs
  split at hs
  · obtain ⟨w, -, rfl⟩ := List.mem_map.1 hs
    exact hi w
  · rw [List.mem_singleton.1 hs]
    exact hf _

/-! ### Types and names -/

namespace Program

variable (p : Program)

theorem isName_declaration (name : Value) (target : Option Target) :
    IsName (declaration name target) := by
  unfold Script.declaration given
  split
  · exact .token _ _
  · exact .fail _

theorem isName_variableDeclaration (bound : Value) : IsName (p.variableDeclaration bound) := by
  unfold variableDeclaration
  split
  · exact isName_declaration _ _
  · exact .fail _

theorem isName_parameterDeclaration (parameter : Value) :
    IsName (p.parameterDeclaration parameter) := by
  unfold parameterDeclaration
  split
  · exact isName_declaration _ _
  · exact .fail _

theorem typeName_inline (type : Value) : Inline (p.typeName type) := by
  unfold typeName
  split
  · exact .given fun _ _ => .given fun _ _ => .token rfl
  · exact .fail _

mutual

theorem typeSlot_inline (v : Value) : Inline (p.typeSlot v) := by
  cases v with
  | scalar s =>
    cases s with
    | _ => exact .fail _
  | entity e =>
    obtain ⟨kind, i⟩ := e
    cases kind with
    | type => rw [typeSlot]; exact p.typeName_inline _
    | genericParameter => exact .content _
    | _ => exact .fail _
  | type tree => exact typeTree_inline tree
  | _ => exact .fail _

theorem typeTree_inline : ∀ t : TypeTree, Inline (p.typeTree t)
  | .bare => .fail _
  | .array element _ => .append (typeSlot_inline element) (.given fun _ _ => .text _)
  | .pointer element => .append (typeSlot_inline element) (.text _)
  | .reference element => typeSlot_inline element
  | .required element modifier | .optional element modifier => .append
      (.append (.append (typeSlot_inline element) (.text _)) (p.typeName_inline modifier)) (.text _)
  | .functionPointer result parameters => by
    rw [typeTree]
    refine .append (.append (.append ?_ (.text _))
      (.commaSeparated (typeItems_inline parameters))) (.text _)
    split_ifs
    · exact .text _
    · exact typeSlot_inline result
  | .genericArgument _ target => by
    rw [typeTree]
    split_ifs
    · exact .fail _
    · exact typeSlot_inline target

theorem typeItems_inline (v : Value) : ∀ s ∈ p.typeItems v, Inline s := by
  cases v with
  | list items => exact typeSlots_inline items
  | _ => rw [typeItems]; exacts [Value.mem_strays _ .fail fun _ => .fail _, by simp]

theorem typeSlots_inline : ∀ vs : List Value, ∀ s ∈ p.typeSlots vs, Inline s
  | [] => by simp [typeSlots]
  | first :: rest => by
    rw [typeSlots, List.forall_mem_cons]
    exact ⟨typeSlot_inline first, typeSlots_inline rest⟩

end

theorem memberOf_inline (member : Value) : Inline (p.memberOf member) := by
  refine .given fun owner _ => ?_
  split_ifs
  · exact .empty
  · exact .append (p.typeName_inline owner) (.text _)

theorem fieldName_inline (field : Value) : Inline (p.fieldName field) := by
  unfold fieldName
  split
  · exact .given fun _ _ => .reference _ _ _
  · exact .fail _

theorem methodReference_inline (id leadsTo : MethodId) : Inline (p.methodReference id leadsTo) :=
  .given fun _ _ => .reference _ _ _

theorem methodName_inline (method : Value) : Inline (p.methodName method) := by
  unfold methodName
  split
  · split
    · exact p.methodReference_inline _ _
    · exact p.methodReference_inline _ _
    · exact .fail _
  · exact .fail _

theorem memberName_inline (member : Value) : Inline (p.memberName member) := by
  unfold memberName
  split
  · exact .given fun _ _ => .reference _ _ _
  · exact p.fieldName_inline member

theorem eventName_inline (event : Value) : Inline (p.eventName event) := by
  unfold eventName
  split
  · exact .given fun _ _ => .reference _ _ _
  · exact .fail _

theorem accessorName_inline (accessor : Value) : Inline (p.accessorName accessor) := by
  unfold accessorName
  split
  · exact p.methodReference_inline _ _
  · exact .fail _

theorem argumentUse_inline (parameter : Value) : Inline (p.argumentUse parameter) := by
  unfold argumentUse
  split
  · exact .given fun _ _ => .reference _ _ _
  · exact .fail _

theorem variableUse_inline (bound : Value) : Inline (p.variableUse bound) := by
  unfold variableUse
  split
  · exact .given fun _ _ => .reference _ _ _
  · exact .fail _

theorem createdType_inline (constructor type : Value) : Inline (p.createdType constructor type) := by
  unfold createdType
  split
  · split_ifs
    · exact p.typeSlot_inline _
    · unfold constructedType
      split
      · exact .given fun _ _ => .given fun _ _ => .given fun _ _ => .token rfl
      · exact .fail _
  · exact p.typeSlot_inline _

theorem accessorCall_inline (property : PropertyId) (accessor : Value) {target : Script}
    {arguments : List Script} (ht : Inline target) (ha : ∀ s ∈ arguments, Inline s) :
    Inline (p.accessorCall property accessor target arguments) := by
  unfold accessorCall
  split_ifs
  · exact .fail _
  · exact .append (.append (.append (.append ht (p.accessorName_inline accessor)) (.text _))
      (.commaSeparated ha)) (.text _)

/-- Parameters after the text that opens their list. -/
theorem parameterList_inline {s : String} (hs : s ≠ "var ") (parameters : Value) :
    Inline (text s ++ p.parameterList parameters) := by
  unfold parameterList given
  split
  · refine .names hs fun n hn => ?_
    obtain ⟨w, -, rfl⟩ := List.mem_map.1 hn
    exact p.isName_parameterDeclaration w
  · exact .append (.text _) (.fail _)

/-- The parameters of a lambda after the text that opens their list. -/
theorem variableList_inline {s : String} (hs : s ≠ "var ") (parameters : Value) :
    Inline (text s ++ given parameters.items fun parameters =>
      commaSeparated (parameters.map p.variableDeclaration)) := by
  unfold given
  split
  · refine .names hs fun n hn => ?_
    obtain ⟨w, -, rfl⟩ := List.mem_map.1 hn
    exact p.isName_variableDeclaration w
  · exact .append (.text _) (.fail _)

end Program

/-! ### Expressions and statements -/

namespace Context

variable (c : Context)

/-- A property with parts that are expressions. -/
structure Access.Inline (access : Access) : Prop where
  target : access.target.Inline
  arguments : ∀ s ∈ access.arguments, s.Inline

theorem read_inline {access : Access} (h : access.Inline) : Inline (c.read access) := by
  unfold read
  split
  · exact c.program.accessorCall_inline _ _ h.target h.arguments
  · exact .fail _

theorem write_inline {access : Access} {value : Script} (h : access.Inline) (hv : Inline value) :
    Inline (c.write access value) := by
  unfold write
  split
  · refine c.program.accessorCall_inline _ _ h.target ?_
    rw [List.forall_mem_append, List.forall_mem_singleton]
    exact ⟨h.arguments, hv⟩
  · exact .fail _

theorem assignment_inline {access : Option Access} {target value : Script}
    (ha : ∀ a ∈ access, a.Inline) (ht : Inline target) (hv : Inline value) :
    Inline (c.assignment access target value) := by
  unfold assignment
  split
  · exact c.write_inline (ha _ rfl) hv
  · exact .append (.append ht (.text _)) hv

theorem newArray_inline (initializer : Value) (isZero : Bool) {items : Option (List Script)}
    {dimensions : List Script} (hi : ∀ l ∈ items, ∀ s ∈ l, Inline s)
    (hd : ∀ s ∈ dimensions, Inline s) : Inline (newArray initializer isZero items dimensions) := by
  unfold newArray
  split
  · exact .block (hi _ rfl)
  · split_ifs
    · exact .fail _
    · exact .text _
    · exact (Fits.commaSeparated hd).between _ _

theorem newMembers_inline (initializer : Value) {items : Option (List Script)}
    (hi : ∀ l ∈ items, ∀ s ∈ l, Inline s) : Inline (newMembers initializer items) := by
  unfold newMembers
  split
  · split_ifs
    · exact .append (.text _) (.block (hi _ rfl))
    · exact .empty
  · split_ifs
    · exact .empty
    · exact .fail _

theorem declarations_declares (body : Value) : Declares (c.declarations body) := by
  unfold declarations given
  split
  · rename_i locals _
    have hn : ∀ n ∈ locals.map fun id => c.program.variableDeclaration (.entity id.entity),
        IsName n := by
      intro n hn
      obtain ⟨id, -, rfl⟩ := List.mem_map.1 hn
      exact c.program.isName_variableDeclaration _
    have h := Declares.lines (.hoisted locals.length) hn
    rwa [List.map_map] at h
  · exact .fail _

theorem functionBody_inline (body : Value) {statements : Script} (h : Statements statements) :
    Inline (Script.indented (c.functionBody body statements)) := by
  unfold functionBody
  split_ifs
  · exact .function (c.declarations_declares body) h
  · exact .indented (.fail _)

theorem catchHead_inline (bound : Value) : Inline (c.catchHead bound) := by
  unfold catchHead between
  refine .append .lineBreak (.append ?_ (.text _))
  split_ifs
  · exact .append (.text _) (.text _)
  · exact .name (by decide) (c.program.isName_variableDeclaration bound)

theorem comment_inline (lines : List String) : Inline (Script.comment lines) := by
  unfold Script.comment
  split
  · exact .text _
  · exact .text _
  · refine .append (.append (.append (.text _) .lineBreak) (.concat ?_)) (.text _)
    intro s hs
    obtain ⟨line, -, rfl⟩ := List.mem_map.1 hs
    exact .append (.text _) .lineBreak

theorem acquire_statements (resource : Value) {rendered : Script} (h : Inline rendered) :
    Statements (acquire resource rendered) := by
  unfold acquire
  split_ifs
  · exact .simple (.inline h)
  · exact .none

theorem release_inline (resource : Value) {rendered : Script} (h : Inline rendered) :
    Inline (c.release resource rendered) := by
  unfold release
  refine .append (.append ?_ (.text _)) .lineBreak
  split
  · exact .append (c.program.variableUse_inline _) (.text _)
  · exact .asTarget _ h

theorem arguments_inline {a b d : Script} {s : String} (ha : Inline a) (hb : Inline b)
    (hd : Inline d) : Inline (between s ")" (commaSeparated [a, b, d])) := by
  refine (Fits.commaSeparated ?_).between _ _
  simp only [List.forall_mem_cons]
  exact ⟨ha, hb, hd, by simp⟩

theorem rethrow_statements : Statements rethrow := .simple (.inline (.append (.text _) (.text _)))

theorem caseLabel_inline {value : Script} (h : Inline value) : Inline (caseLabel value) :=
  .append (.append (.append (.text _) h) (.text _)) .lineBreak

mutual

theorem exprSlot_fits (v : Value) : Inline (c.exprSlot v) := by
  cases v with
  | scalar s =>
    cases s with
    | _ => exact .fail _
  | expr e => exact .delayed (expr_fits e)
  | _ => exact .fail _
termination_by structural v

theorem exprItems_fits (v : Value) : ∀ s ∈ c.exprItems v, Inline s := by
  cases v with
  | list items => exact exprSlots_fits items
  | _ => rw [exprItems]; exacts [Value.mem_strays _ .fail fun _ => .fail _, by simp]
termination_by structural v

theorem exprSlots_fits : ∀ vs : List Value, ∀ s ∈ c.exprSlots vs, Inline s
  | [] => by simp [exprSlots]
  | first :: rest => by
    rw [exprSlots, List.forall_mem_cons]
    exact ⟨exprSlot_fits first, exprSlots_fits rest⟩
termination_by structural vs => vs

theorem property?_fits (v : Value) : ∀ a ∈ c.property? v, a.Inline := by
  cases v with
  | expr e =>
    cases e with
    | property property target =>
      rintro a ⟨⟩
      exact ⟨.asTarget _ (exprSlot_fits target), by simp⟩
    | _ => rintro a ⟨⟩
  | _ => rintro a ⟨⟩
termination_by structural v

theorem access?_fits (v : Value) : ∀ a ∈ c.access? v, a.Inline := by
  cases v with
  | expr e =>
    cases e with
    | property property target =>
      rintro a ⟨⟩
      exact ⟨.asTarget _ (exprSlot_fits target), by simp⟩
    | propertyIndexer target indices =>
      intro a ha
      rw [access?, Option.mem_def, Option.map_eq_some_iff] at ha
      obtain ⟨access, ht, rfl⟩ := ha
      exact ⟨(property?_fits target access ht).target, exprItems_fits indices⟩
    | _ => rintro a ⟨⟩
  | _ => rintro a ⟨⟩
termination_by structural v

theorem items?_fits (v : Value) : ∀ l ∈ c.items? v, ∀ s ∈ l, Inline s := by
  cases v with
  | expr e =>
    cases e with
    | block items => rintro l ⟨⟩; exact exprItems_fits items
    | _ => rintro l ⟨⟩
  | clause k =>
    cases k with
    | order items => rintro l ⟨⟩; exact exprItems_fits items
    | _ => rintro l ⟨⟩
  | _ => rintro l ⟨⟩
termination_by structural v

theorem pointee?_fits (v : Value) : ∀ s ∈ c.pointee? v, Inline s := by
  cases v with
  | expr e =>
    cases e with
    | addressOf operand => rintro s ⟨⟩; exact exprSlot_fits operand
    | _ => rintro s ⟨⟩
  | _ => rintro s ⟨⟩
termination_by structural v

theorem counter?_fits (target : Value) {whole : Script} (hw : Inline whole) (v : Value) :
    ∀ s ∈ c.counter? target whole v, Inline s := by
  cases v with
  | expr e =>
    cases e with
    | binary left operator right =>
      intro s hs
      rw [counter?, Option.mem_def, Option.map_eq_some_iff] at hs
      obtain ⟨call, -, rfl⟩ := hs
      exact .append (.append (.append (.append (.text _) hw) (.text _)) (exprSlot_fits right))
        (.text _)
    | _ => rintro s ⟨⟩
  | _ => rintro s ⟨⟩
termination_by structural v

theorem expr_fits : ∀ e : Expr, Inline (c.expr e)
  | .bare => .fail _
  | .literal value kind => .given fun _ _ => .text _
  | .assign target value => by
    rw [expr]
    cases h : c.counter? target (c.exprSlot target) value with
    | some s => exact counter?_fits target (exprSlot_fits target) value s h
    | none =>
      exact c.assignment_inline (access?_fits target) (exprSlot_fits target) (exprSlot_fits value)
  | .typeOf type => (c.program.typeSlot_inline type).between _ _
  | .fieldOf field type =>
    (Fits.append (.append (c.program.memberOf_inline field) (c.program.fieldName_inline field))
      (.optionally _ (.append (.text _) (c.program.typeSlot_inline type)))).between _ _
  | .methodOf method type =>
    (Fits.append (.append (c.program.memberOf_inline method)
      (c.program.methodName_inline method))
      (.optionally _ (.append (.text _) (c.program.typeSlot_inline type)))).between _ _
  | .initMember member value =>
    .append (.append (c.program.memberName_inline member) (.text _)) (exprSlot_fits value)
  | .typeName type => c.program.typeName_inline type
  | .field field target =>
    .append (.asTarget _ (exprSlot_fits target)) (c.program.fieldName_inline field)
  | .event event target =>
    .append (.asTarget _ (exprSlot_fits target)) (c.program.eventName_inline event)
  | .method method target =>
    .append (.asTarget _ (exprSlot_fits target)) (c.program.methodName_inline method)
  | .property property target =>
    c.read_inline ⟨.asTarget _ (exprSlot_fits target), by simp⟩
  | .argumentList | .base | .this => .text _
  | .stackAllocate type size =>
    .append (.append (.text _) (c.program.typeSlot_inline type)) (exprSlot_fits size).bracketed
  | .block items => .block (exprItems_fits items)
  | .arrayCreate type dimensions initializer =>
    newArray_inline _ _ (items?_fits initializer) (exprItems_fits dimensions)
  | .unary operator operand => .unary _ (exprSlot_fits operand)
  | .binary left operator right => .binary _ (exprSlot_fits left) (exprSlot_fits right)
  | .tryCast operand type | .canCast operand type =>
    (Fits.append (.append (exprSlot_fits operand) (.text _))
      (c.program.typeSlot_inline type)).parenthesized
  | .cast operand type => exprSlot_fits operand
  | .condition condition yes no =>
    (Fits.append (.append (.append (.append (exprSlot_fits condition) (.text _))
      (exprSlot_fits yes)) (.text _)) (exprSlot_fits no)).parenthesized
  | .coalesce subject fallback =>
    .append (.append (.append (.append (.append (.append (.text _) (exprSlot_fits subject))
      (.text _)) (exprSlot_fits subject)) (.text _)) (exprSlot_fits fallback)) (.text _)
  | .delegateCreate type method target =>
    .append (c.program.typeSlot_inline type)
      ((Fits.append (.optionally _ (.append (exprSlot_fits target) (.text _)))
        (c.program.methodName_inline method)).between _ _)
  | .function parameters body type =>
    .append (.append (.append (.append
      (c.program.parameterList_inline (by decide) parameters) (.text _)) .lineBreak)
      (c.functionBody_inline body (.optionalBody _ (stmtSlot_fits body)))) (.text _)
  | .lambda parameters body =>
    .append (.append (.append (c.program.variableList_inline (by decide) parameters) (.text _))
      (exprSlot_fits body)) (.text _)
  | .argument parameter => c.program.argumentUse_inline parameter
  | .declare bound | .variable bound => c.program.variableUse_inline bound
  | .propertyIndexer target indices => by
    rw [expr]
    cases h : c.property? target with
    | some access =>
      exact c.read_inline ⟨(property?_fits target access h).target, exprItems_fits indices⟩
    | none => exact .fail _
  | .arrayIndexer target indices => by
    refine .append (exprSlot_fits target) (.concat fun s hs => ?_)
    obtain ⟨t, ht, rfl⟩ := List.mem_map.1 hs
    exact (exprItems_fits indices t ht).bracketed
  | .invoke method arguments =>
    .append (.asCallee _ (exprSlot_fits method))
      (Fits.commaSeparated (exprItems_fits arguments)).parenthesized
  | .delegateInvoke target arguments =>
    .append (exprSlot_fits target)
      (Fits.commaSeparated (exprItems_fits arguments)).parenthesized
  | .objectCreate type constructor arguments initializer =>
    .append (.append (.append (.text _) (c.program.createdType_inline constructor type))
      ((Fits.commaSeparated (exprItems_fits arguments)).between _ _))
      (newMembers_inline _ (items?_fits initializer))
  | .addressOf operand | .addressReference operand | .addressOut operand =>
    (exprSlot_fits operand).bracketed
  | .dereference operand => by
    rw [expr]
    cases h : c.pointee? operand with
    | some s => exact pointee?_fits operand s h
    | none => exact exprSlot_fits operand
  | .sizeOf type | .genericDefault type => (c.program.typeSlot_inline type).between _ _
  | .typeOfTyped operand | .createTyped operand => (exprSlot_fits operand).between _ _
  | .valueOfTyped operand type =>
    (Fits.append (exprSlot_fits operand)
      (.optionally _ (.append (.text _) (c.program.typeSlot_inline type)))).between _ _
  | .snippet code => .content code
  | .query source body =>
    (Fits.append (querySource_fits source) (.indented (queryBody_fits body))).parenthesized
termination_by structural e => e

theorem querySource_fits (v : Value) : Inline (c.querySource v) := by
  have binds (bound source : Value) (hs : Inline (c.exprSlot source)) :
      Inline (text "from " ++ c.program.variableDeclaration bound ++ text " in " ++
        c.exprSlot source) :=
    .append (.append (.name (by decide) (c.program.isName_variableDeclaration bound)) (.text _)) hs
  cases v with
  | clause k =>
    cases k with
    | «from» bound source | «let» bound source => exact binds bound source (exprSlot_fits source)
    | _ => exact .append (.text _) (.fail _)
  | stmt s =>
    cases s with
    | forEach bound source body | fixed bound source body =>
      exact binds bound source (exprSlot_fits source)
    | _ => exact .append (.text _) (.fail _)
  | _ => exact .append (.text _) (.fail _)
termination_by structural v

theorem queryClause_fits (v : Value) : Inline (c.queryClause v) := by
  cases v with
  | clause k =>
    cases k with
    | «from» bound source =>
      exact .append (.append (.name (by decide) (c.program.isName_variableDeclaration bound))
        (.text _)) (exprSlot_fits source)
    | «where» condition => exact .append (.text _) (exprSlot_fits condition)
    | «let» bound value =>
      exact .append (.append (.name (by decide) (c.program.isName_variableDeclaration bound))
        (.text _)) (exprSlot_fits value)
    | join bound source on equality into =>
      have hb := Fits.name (s := "join ") (by decide) (c.program.isName_variableDeclaration bound)
      have hi := Fits.name (s := " into ") (by decide) (c.program.isName_variableDeclaration into)
      exact .append (.append (.append (.append (.append (.append (.append hb (.text _))
        (exprSlot_fits source)) (.text _)) (exprSlot_fits on)) (.text _)) (exprSlot_fits equality))
        (.optionally _ hi)
    | order orderings =>
      exact .append (.text _) (.commaSeparated (orderingItems_fits orderings))
    | _ => exact .fail _
  | _ => exact .fail _
termination_by structural v

theorem queryClauseItems_fits (v : Value) : ∀ s ∈ c.queryClauseItems v, Inline s := by
  cases v with
  | list items => exact queryClauses_fits items
  | _ =>
    rw [queryClauseItems]
    exacts [Value.mem_strays _ .fail fun _ => .append .lineBreak (.fail _), by simp]
termination_by structural v

theorem queryClauses_fits : ∀ vs : List Value, ∀ s ∈ c.queryClauses vs, Inline s
  | [] => by simp [queryClauses]
  | first :: rest => by
    rw [queryClauses, List.forall_mem_cons]
    exact ⟨.append .lineBreak (queryClause_fits first), queryClauses_fits rest⟩
termination_by structural vs => vs

theorem ordering_fits (v : Value) : Inline (c.ordering v) := by
  cases v with
  | clause k =>
    cases k with
    | ordering key direction =>
      rw [ordering]
      refine .append (exprSlot_fits key) ?_
      split_ifs
      · exact .text _
      · exact .empty
    | _ => exact .fail _
  | _ => exact .fail _
termination_by structural v

theorem orderingItems_fits (v : Value) : ∀ s ∈ c.orderingItems v, Inline s := by
  cases v with
  | list items => exact orderings_fits items
  | _ => rw [orderingItems]; exacts [Value.mem_strays _ .fail fun _ => .fail _, by simp]
termination_by structural v

theorem orderings_fits : ∀ vs : List Value, ∀ s ∈ c.orderings vs, Inline s
  | [] => by simp [orderings]
  | first :: rest => by
    rw [orderings, List.forall_mem_cons]
    exact ⟨ordering_fits first, orderings_fits rest⟩
termination_by structural vs => vs

theorem queryOperation_fits (v : Value) : Inline (c.queryOperation v) := by
  cases v with
  | clause k =>
    cases k with
    | select value => exact .append (.text _) (exprSlot_fits value)
    | group item key =>
      exact .append (.append (.append (.text _) (exprSlot_fits item)) (.text _)) (exprSlot_fits key)
    | _ => exact .fail _
  | _ => exact .fail _
termination_by structural v

theorem queryBody_fits (v : Value) : Inline (c.queryBody v) := by
  cases v with
  | clause k =>
    cases k with
    | queryBody operation clauses continuation =>
      exact .append (.append (.append (.concat (queryClauseItems_fits clauses)) .lineBreak)
        (queryOperation_fits operation)) (queryContinuation_fits continuation)
    | _ => exact .fail _
  | _ => exact .fail _
termination_by structural v

theorem queryContinuation_fits (v : Value) : Inline (c.queryContinuation v) := by
  have binds (bound body : Value) (hb : Inline (c.queryBody body)) :
      Inline (text " into " ++ c.program.variableDeclaration bound ++ c.queryBody body) :=
    .append (.name (by decide) (c.program.isName_variableDeclaration bound)) hb
  cases v with
  | scalar s =>
    cases s with
    | null => exact .empty
    | _ => exact .append (.text _) (.fail _)
  | clause k =>
    cases k with
    | continuation bound body | «catch» body bound _ => exact binds bound body (queryBody_fits body)
    | _ => exact .append (.text _) (.fail _)
  | stmt s =>
    cases s with
    | forEach bound source body | fixed bound source body =>
      exact binds bound body (queryBody_fits body)
    | _ => exact .append (.text _) (.fail _)
  | _ => exact .append (.text _) (.fail _)
termination_by structural v

theorem stmtSlot_fits (v : Value) : Statements (c.stmtSlot v) := by
  cases v with
  | scalar s =>
    cases s with
    | _ => exact .broken _
  | stmt s => exact .later (stmt_fits s)
  | _ => exact .broken _
termination_by structural v

theorem stmtItems_fits (v : Value) : ∀ s ∈ c.stmtItems v, Statements s := by
  cases v with
  | list items => exact stmtSlots_fits items
  | _ =>
    rw [stmtItems]
    exacts [Value.mem_strays _ .broken fun _ => .broken _, by simp]
termination_by structural v

theorem stmtSlots_fits : ∀ vs : List Value, ∀ s ∈ c.stmtSlots vs, Statements s
  | [] => by simp [stmtSlots]
  | first :: rest => by
    rw [stmtSlots, List.forall_mem_cons]
    exact ⟨stmtSlot_fits first, stmtSlots_fits rest⟩
termination_by structural vs => vs

theorem stmt_fits : ∀ s : Stmt, Statements (c.stmt s)
  | .bare => .broken _
  | .block statements => .followAll (stmtItems_fits statements)
  | .expression expression => by
    rw [stmt]
    split_ifs
    · exact .none
    · exact .simple (.inline (exprSlot_fits expression))
  | .goto _ label => .simple (.inline (.name (by decide) (Program.isName_declaration label none)))
  | .labeled _ label statement => by
    rw [stmt]
    refine .follow ?_ (.optionalBody _ (stmtSlot_fits statement))
    cases label.asName with
    | ok name => exact .label name
    | error f => exact .started (.own .first (.inline (.fail f)))
  | .condition condition yes no =>
    .started (.own (.own (.own (.own .first (.inline (.text _)))
      (.inline (.asCondition _ (exprSlot_fits condition))))
      (.braced (.optionalBody _ (stmtSlot_fits yes))))
      (.ownOptionally _ (.unlessEmpty _ (.ownAppend (.inline (.append .lineBreak (.text _)))
        (.braced (stmtSlot_fits no))))))
  | .return value =>
    .simple (.inline (.append (.text _) (.optionally _ (.append (.text _) (exprSlot_fits value)))))
  | .for start condition increment body =>
    .started (.own (.own (.header (.own .first (.inline (.text _)))
      (.optionalBody _ (stmtSlot_fits start)) (.optionally _ (exprSlot_fits condition))
      (.optionalBody _ (stmtSlot_fits increment))) (.inline (.text _)))
      (.braced (.optionalBody _ (stmtSlot_fits body))))
  | .forEach bound source body | .fixed bound source body =>
    .started (.own (.own (.own (.own (.own (.own .first (.inline (.text _)))
      (.inline (c.program.variableUse_inline bound))) (.inline (.text _)))
      (.inline (exprSlot_fits source))) (.inline (.text _)))
      (.braced (.optionalBody _ (stmtSlot_fits body))))
  | .using resource body =>
    .started (.own (.own (.own (.own (.own (.own (.own (.own
      (.next (acquire_statements _ (exprSlot_fits resource))) (.inline (.text _)))
      (.braced (.optionalBody _ (stmtSlot_fits body)))) (.inline .lineBreak)) (.inline (.text _)))
      (.inline .lineBreak)) (.inline (.indented (c.release_inline _ (exprSlot_fits resource)))))
      (.inline (.text _))) (.terminate _))
  | .while condition body | .lock condition body =>
    .started (.own (.own (.own .first (.inline (.text _)))
      (.inline (.asCondition _ (exprSlot_fits condition))))
      (.braced (.optionalBody _ (stmtSlot_fits body))))
  | .do condition body =>
    .simple (.ownAppend (.ownAppend (.ownAppend (.inline (.text _))
      (.braced (.optionalBody _ (stmtSlot_fits body)))) (.inline (.text _)))
      (.inline (.asCondition _ (exprSlot_fits condition))))
  | .try body catches fault last =>
    .started (.own (.own (.own (.own (.own (.own .first (.inline (.text _)))
      (.braced (.optionalBody _ (stmtSlot_fits body)))) (.ownConcat (catchItems_fits catches)))
      (.unlessEmpty _ (.ownAppend (.inline (.append .lineBreak (.text _)))
        (.braced (.follow (stmtSlot_fits fault) rethrow_statements)))))
      (.unlessEmpty _ (.ownAppend (.inline (.append .lineBreak (.text _)))
        (.braced (stmtSlot_fits last))))) (.terminate _))
  | .throw value => by
    rw [stmt]
    refine .simple (.inline (.append (.text _) ?_))
    split_ifs
    · exact .text _
    · exact exprSlot_fits value
  | .attach event listener | .detach event listener =>
    .simple (.inline (.append (.append (exprSlot_fits event) (.text _)) (exprSlot_fits listener)))
  | .switch subject cases =>
    .started (.own (.own (.own (.own (.own (.own (.own .first (.inline (.text _)))
      (.inline (.asCondition _ (exprSlot_fits subject)))) (.inline (.text _))) (.inline .lineBreak))
      (.ownConcat (switchItems_fits subject cases))) (.inline (.text _))) (.terminate _))
  | .break | .continue | .debugBreak => .simple (.inline (.text _))
  | .memoryCopy first second length | .memoryFill first second length =>
    .simple (.inline (arguments_inline (exprSlot_fits first) (exprSlot_fits second)
      (exprSlot_fits length)))
  | .comment content =>
    .started (.own (.own .first (.inline (.given fun lines _ => comment_inline lines)))
      (.terminate _))
termination_by structural s => s

theorem catchClause_fits (v : Value) : Fits .own (c.catchClause v) := by
  cases v with
  | clause k =>
    cases k with
    | «catch» body bound condition =>
      rw [catchClause]
      have hb := Fits.braced (.optionalBody body (stmtSlot_fits body))
      refine .ownAppend (.inline (c.catchHead_inline bound)) ?_
      split_ifs
      · exact hb
      · exact .ownAppend (.ownAppend (.inline (.append (.text _) .lineBreak))
          (.ownIndented (.ownAppend (.ownAppend (.ownAppend (.inline (.text _))
            (.inline (.asCondition _ (exprSlot_fits condition)))) hb) (.inline .lineBreak))))
          (.inline (.text _))
    | _ => exact .inline (.append (.append .lineBreak (.text _)) (.fail _))
  | _ => exact .inline (.append (.append .lineBreak (.text _)) (.fail _))
termination_by structural v

theorem catchItems_fits (v : Value) : ∀ s ∈ c.catchItems v, Fits .own s := by
  cases v with
  | list items => exact catchClauses_fits items
  | _ =>
    rw [catchItems]
    exacts [Value.mem_strays _ (fun _ => .inline (.fail _)) fun _ =>
      .inline (.append (.append .lineBreak (.text _)) (.fail _)), by simp]
termination_by structural v

theorem catchClauses_fits : ∀ vs : List Value, ∀ s ∈ c.catchClauses vs, Fits .own s
  | [] => by simp [catchClauses]
  | first :: rest => by
    rw [catchClauses, List.forall_mem_cons]
    exact ⟨catchClause_fits first, catchClauses_fits rest⟩
termination_by structural vs => vs

theorem caseLabels_fits (subject : Value) {whole : Script} (hw : Inline whole) (v : Value) :
    Inline (c.caseLabels subject whole v) := by
  cases v with
  | expr e =>
    cases e with
    | binary left operator right =>
      rw [caseLabels]
      split_ifs
      · exact .append (caseLabels_fits subject (exprSlot_fits left) left)
          (caseLabels_fits subject (exprSlot_fits right) right)
      · exact caseLabel_inline (exprSlot_fits right)
      · exact caseLabel_inline hw
    | _ => exact caseLabel_inline hw
  | _ => exact caseLabel_inline hw
termination_by structural v

theorem switchCase_fits (subject : Value) (v : Value) : Fits .own (c.switchCase subject v) := by
  cases v with
  | clause k =>
    cases k with
    | case body condition =>
      exact .ownAppend (.inline (caseLabels_fits subject (exprSlot_fits condition) condition))
        (.body (.optionalBody _ (stmtSlot_fits body)))
    | default body =>
      exact .ownAppend (.inline (.append (.text _) .lineBreak))
        (.body (.optionalBody _ (stmtSlot_fits body)))
    | _ => exact .inline (.fail _)
  | _ => exact .inline (.fail _)
termination_by structural v

theorem switchItems_fits (subject : Value) (v : Value) :
    ∀ s ∈ c.switchItems subject v, Fits .own s := by
  cases v with
  | list items => exact switchCases_fits subject items
  | _ =>
    rw [switchItems]
    exacts [Value.mem_strays _ (fun _ => .inline (.fail _)) fun _ => .inline (.fail _), by simp]
termination_by structural v

theorem switchCases_fits (subject : Value) :
    ∀ vs : List Value, ∀ s ∈ c.switchCases subject vs, Fits .own s
  | [] => by simp [switchCases]
  | first :: rest => by
    rw [switchCases, List.forall_mem_cons]
    exact ⟨switchCase_fits subject first, switchCases_fits subject rest⟩
termination_by structural vs => vs

end

end Context

end Scribe
