import Mathlib.Logic.Relation
import Mathlib.Tactic.Common
import Scribe.Proofs.Within
import Scribe.Render.Code

/-!
# Where a render goes

A `Site` is a slot and what it is rendered as. `Site.next` lists the sites that the render of a site
goes on to; it leaves out the slots that are not written, such as the dimensions of an array that is
given its elements, or the left operand of a counter. `Site.within_of_mem_next` says that the scripts
of those sites are parts of the script of the site.
-/

namespace Scribe

open Script

/-- A slot, and what it is rendered as. -/
inductive Site
  | expr (v : Value)
  | stmt (v : Value)
  /-- A condition of a case, or an alternative of one. -/
  | label (subject v : Value)
  | catchClause (v : Value)
  | switchCase (subject v : Value)
  | querySource (v : Value)
  | queryClause (v : Value)
  | ordering (v : Value)
  | queryOperation (v : Value)
  | queryBody (v : Value)
  | queryContinuation (v : Value)

namespace Value

/-- The items of a list, if it is one. -/
def elements : Value → List Value
  | .list items => items
  | _ => []

/-- What an optional slot holds. -/
def present (v : Value) : List Value := if v.isNull then [] else [v]

/-- A block that has statements. -/
def filled : Value → List Value
  | .stmt (.block statements) => if statements.isSet then [.stmt (.block statements)] else []
  | _ => []

/-- The slots that a property is accessed through. -/
def accessSlots : Value → List Value
  | .expr (.property _ target) => target.present
  | _ => []

/-- The slots that are written of the target of an assignment. -/
def assignedSlots : Value → List Value
  | .expr (.property _ target) => target.present
  | .expr (.propertyIndexer (.expr (.property _ target)) indices) =>
    target.present ++ indices.elements
  | v => [v]

end Value

namespace Context

/-- By how much an assignment counts its target, where it does. -/
def counted? (c : Context) (target : Value) : Value → Option Value
  | .expr (.binary left operator right) => (c.counterCall? target left operator).map fun _ => right
  | _ => none

/-- The sites that an expression goes on to. -/
def exprSites (c : Context) : Expr → List Site
  | .assign target value =>
    (match c.counted? target value with
      | some amount => [target, amount]
      | none => target.assignedSlots ++ [value]).map .expr
  | .initMember _ value => [.expr value]
  | .field _ target | .event _ target | .method _ target | .property _ target
  | .delegateCreate _ _ target => target.present.map .expr
  | .stackAllocate _ operand | .unary _ operand | .tryCast operand _ | .canCast operand _
  | .cast operand _ | .lambda _ operand | .addressOf operand | .addressReference operand
  | .addressOut operand | .typeOfTyped operand | .valueOfTyped operand _
  | .createTyped operand => [.expr operand]
  | .dereference (.expr (.addressOf operand)) => [.expr operand]
  | .dereference operand => [.expr operand]
  | .block items => items.elements.map .expr
  | .arrayCreate _ dimensions initializer =>
    (match initializer.listed? with
      | some items => items.elements
      | none => if dimensions.areZero then [] else dimensions.elements).map .expr
  | .binary left _ right => [.expr left, .expr right]
  | .condition test yes no => [.expr test, .expr yes, .expr no]
  | .coalesce subject fallback => [.expr subject, .expr fallback]
  | .function _ body _ => body.present.map .stmt
  | .propertyIndexer target indices => (target.accessSlots ++ indices.elements).map .expr
  | .arrayIndexer target items | .invoke target items | .delegateInvoke target items =>
    (target :: items.elements).map .expr
  | .objectCreate _ _ arguments initializer =>
    (arguments.elements ++ (initializer.listed?.elim [] Value.elements)).map .expr
  | .query source body => [.querySource source, .queryBody body]
  | _ => []

/-- The sites that a statement goes on to. A declaration alone is not written. -/
def stmtSites : Stmt → List Site
  | .block statements => statements.elements.map .stmt
  | .expression value => if value.isDeclaration then [] else [.expr value]
  | .labeled _ _ statement => statement.present.map .stmt
  | .condition test yes no =>
    test.present.map .expr ++ yes.present.map .stmt ++ no.filled.map .stmt
  | .return value | .throw value => value.present.map .expr
  | .for start test increment body =>
    start.present.map .stmt ++ test.present.map .expr ++ increment.present.map .stmt ++
      body.present.map .stmt
  | .forEach _ source body | .fixed _ source body => .expr source :: body.present.map .stmt
  | .using resource body => resource.present.map .expr ++ body.present.map .stmt
  | .while test body | .do test body | .lock test body =>
    test.present.map .expr ++ body.present.map .stmt
  | .try body catches fault last =>
    body.present.map .stmt ++ catches.elements.map .catchClause ++ fault.filled.map .stmt ++
      last.filled.map .stmt
  | .attach event listener | .detach event listener => [.expr event, .expr listener]
  | .switch subject cases =>
    subject.present.map .expr ++ cases.elements.map (.switchCase subject)
  | .memoryCopy first second third | .memoryFill first second third =>
    [.expr first, .expr second, .expr third]
  | _ => []

end Context

namespace Site

/-- What is written at a site. -/
def script (c : Context) : Site → Script
  | .expr v => c.exprSlot v
  | .stmt v => c.stmtSlot v
  | .label subject v => c.caseLabels subject (c.exprSlot v) v
  | .catchClause v => c.catchClause v
  | .switchCase subject v => c.switchCase subject v
  | .querySource v => c.querySource v
  | .queryClause v => c.queryClause v
  | .ordering v => c.ordering v
  | .queryOperation v => c.queryOperation v
  | .queryBody v => c.queryBody v
  | .queryContinuation v => c.queryContinuation v

/-- The sites that the render of a site goes on to. -/
def next (c : Context) : Site → List Site
  | .expr (.expr e) => c.exprSites e
  | .stmt (.stmt s) => Context.stmtSites s
  | .label subject (.expr (.binary left operator right)) =>
    if operator.isText "boolean_or" then [.label subject left, .label subject right]
    else if c.comparesSubject subject left operator then [.expr right]
    else [.expr (.expr (.binary left operator right))]
  | .label _ v => [.expr v]
  | .catchClause (.clause (.catch body _ test)) =>
    test.present.map .expr ++ body.present.map .stmt
  | .switchCase subject (.clause (.case body test)) =>
    .label subject test :: body.present.map .stmt
  | .switchCase _ (.clause (.default body)) => body.present.map .stmt
  | .querySource (.clause (.from _ source)) | .querySource (.clause (.let _ source))
  | .querySource (.stmt (.forEach _ source _)) | .querySource (.stmt (.fixed _ source _)) =>
    [.expr source]
  | .queryClause (.clause (.from _ value)) | .queryClause (.clause (.where value))
  | .queryClause (.clause (.let _ value)) => [.expr value]
  | .queryClause (.clause (.join _ source on equality _)) =>
    [.expr source, .expr on, .expr equality]
  | .queryClause (.clause (.order orderings)) => orderings.elements.map .ordering
  | .ordering (.clause (.ordering key _)) => [.expr key]
  | .queryOperation (.clause (.select value)) => [.expr value]
  | .queryOperation (.clause (.group item key)) => [.expr item, .expr key]
  | .queryBody (.clause (.queryBody operation clauses continuation)) =>
    clauses.elements.map .queryClause ++ [.queryOperation operation, .queryContinuation continuation]
  | .queryContinuation (.clause (.continuation _ body))
  | .queryContinuation (.clause (.catch body _ _)) | .queryContinuation (.stmt (.forEach _ _ body))
  | .queryContinuation (.stmt (.fixed _ _ body)) => [.queryBody body]
  | _ => []

end Site

/-! ### The scripts of sites -/

namespace Value

variable {v w : Value} {P : Value → Prop}

theorem forall_present : (∀ w ∈ v.present, P w) ↔ (v.isNull = false → P v) := by
  unfold present
  cases v.isNull <;> simp

theorem forall_filled : (∀ w ∈ v.filled, P w) ↔
    ∀ statements, v = .stmt (.block statements) → statements.isSet = true → P v := by
  unfold filled
  split
  · split_ifs with h <;> simp [h]
  · next h => exact iff_of_true (List.forall_mem_nil _) fun statements hv => absurd hv (h statements)

end Value

namespace Context

variable (c : Context) {t : Script} {v w : Value}

theorem mem_exprItems (h : w ∈ v.elements) : c.exprSlot w ∈ c.exprItems v := by
  cases v with
  | list items =>
    rw [exprItems, exprSlots_eq]
    exact List.mem_map_of_mem h
  | _ => cases h

theorem mem_stmtItems (h : w ∈ v.elements) : c.stmtSlot w ∈ c.stmtItems v := by
  cases v with
  | list items =>
    rw [stmtItems, stmtSlots_eq]
    exact List.mem_map_of_mem h
  | _ => cases h

theorem mem_catchItems (h : w ∈ v.elements) : c.catchClause w ∈ c.catchItems v := by
  cases v with
  | list items =>
    rw [catchItems, catchClauses_eq]
    exact List.mem_map_of_mem h
  | _ => cases h

theorem mem_switchItems (subject : Value) (h : w ∈ v.elements) :
    c.switchCase subject w ∈ c.switchItems subject v := by
  cases v with
  | list items =>
    rw [switchItems, switchCases_eq]
    exact List.mem_map_of_mem h
  | _ => cases h

theorem mem_queryClauseItems (h : w ∈ v.elements) :
    lineBreak ++ c.queryClause w ∈ c.queryClauseItems v := by
  cases v with
  | list items =>
    rw [queryClauseItems, queryClauses_eq]
    exact List.mem_map_of_mem (f := fun v => lineBreak ++ c.queryClause v) h
  | _ => cases h

theorem mem_orderingItems (h : w ∈ v.elements) : c.ordering w ∈ c.orderingItems v := by
  cases v with
  | list items =>
    rw [orderingItems, orderings_eq]
    exact List.mem_map_of_mem h
  | _ => cases h

/-- The elements of what an initializer lists. -/
theorem mem_items? {items : Value} (hv : v.listed? = some items) (h : w ∈ items.elements) :
    ∃ l, c.items? v = some l ∧ c.exprSlot w ∈ l := by
  unfold Value.listed? at hv
  split at hv
  · cases hv
    exact ⟨_, rfl, c.mem_exprItems h⟩
  · cases hv
    exact ⟨_, rfl, c.mem_exprItems h⟩
  · cases hv

theorem items?_eq_none (hv : v.listed? = none) : c.items? v = none := by
  cases v with
  | expr e =>
    cases e with
    | block items => cases hv
    | _ => rfl
  | clause k =>
    cases k with
    | order items => cases hv
    | _ => rfl
  | _ => rfl

theorem property?_eq_none (h : ∀ property target, v ≠ .expr (.property property target)) :
    c.property? v = none := by
  cases v with
  | expr e =>
    cases e with
    | property property target => exact absurd rfl (h property target)
    | _ => rfl
  | _ => rfl

/-- A call of an accessor is made of its target and its arguments. -/
theorem within_accessorCall {id : PropertyId} {accessor : Value} {target : Script}
    {arguments : List Script}
    (hf : (c.program.accessorCall id accessor target arguments).fault = none) :
    Within target (c.program.accessorCall id accessor target arguments) ∧
      ∀ a ∈ arguments, Within a (c.program.accessorCall id accessor target arguments) := by
  unfold Program.accessorCall at hf ⊢
  split_ifs at hf ⊢
  · cases hf
  · exact ⟨.left (.left (.left (.left .refl))), fun a ha => .left (.right (.commaSeparated ha))⟩

theorem within_read {access : Access} (hf : (c.read access).fault = none) :
    Within access.target (c.read access) ∧ ∀ a ∈ access.arguments, Within a (c.read access) := by
  unfold read at hf ⊢
  split at hf
  · exact c.within_accessorCall hf
  · cases hf

theorem within_write {access : Access} {value : Script} (hf : (c.write access value).fault = none) :
    Within access.target (c.write access value) ∧
      ∀ a ∈ access.arguments ++ [value], Within a (c.write access value) := by
  unfold write at hf ⊢
  split at hf
  · exact c.within_accessorCall hf
  · cases hf

theorem counter?_of_counted? {target amount : Value} (whole : Script)
    (h : c.counted? target v = some amount) :
    ∃ call, c.counter? target whole v =
      some (text call ++ whole ++ text ", " ++ c.exprSlot amount ++ text ")") := by
  unfold counted? at h
  split at h
  · obtain ⟨call, hc, rfl⟩ := Option.map_eq_some_iff.1 h
    refine ⟨call, ?_⟩
    rw [counter?, hc, Option.map_some]
  · cases h

theorem counter?_of_not_counted? {target : Value} (whole : Script)
    (h : c.counted? target v = none) : c.counter? target whole v = none := by
  cases v with
  | expr e =>
    cases e with
    | binary left operator right =>
      rw [counted?] at h
      rw [counter?, Option.map_eq_none_iff.1 h, Option.map_none]
    | _ => rfl
  | _ => rfl

/-- The slots of the target and the value are parts of an assignment that counts nothing. -/
theorem within_assignment {target value : Value}
    (hf : (c.assignment (c.access? target) (c.exprSlot target) (c.exprSlot value)).fault = none) :
    ∀ w ∈ target.assignedSlots ++ [value], Within (c.exprSlot w)
      (c.assignment (c.access? target) (c.exprSlot target) (c.exprSlot value)) := by
  unfold Value.assignedSlots
  split
  · next property owner =>
    rw [access?, assignment] at hf ⊢
    obtain ⟨ht, hv⟩ := c.within_write hf
    rw [List.forall_mem_append, Value.forall_present, List.forall_mem_singleton]
    exact ⟨fun hn => (Within.asTarget hn).trans ht, hv _ (by simp)⟩
  · next property owner indices =>
    rw [access?, property?, Option.map_some, assignment] at hf ⊢
    obtain ⟨ht, hv⟩ := c.within_write hf
    rw [List.forall_mem_append, List.forall_mem_append, Value.forall_present,
      List.forall_mem_singleton]
    exact ⟨⟨fun hn => (Within.asTarget hn).trans ht,
      fun w hw => hv _ (List.mem_append_left _ (c.mem_exprItems hw))⟩, hv _ (by simp)⟩
  · next hp hi =>
    have hnone : c.access? target = none := by
      cases target with
      | expr e =>
        cases e with
        | property property owner => exact absurd rfl (hp property owner)
        | propertyIndexer target indices =>
          rw [access?, c.property?_eq_none fun property owner ht => ?_, Option.map_none]
          exact hi property owner indices (by rw [ht])
        | _ => rfl
      | _ => rfl
    rw [hnone, assignment, List.forall_mem_append, List.forall_mem_singleton,
      List.forall_mem_singleton]
    exact ⟨.left (.left .refl), .right .refl⟩

/-- The elements of a new array, or its dimensions. -/
theorem within_newArray {initializer dimensions : Value}
    (hf : (newArray initializer dimensions.areZero (c.items? initializer)
      (c.exprItems dimensions)).fault = none) :
    ∀ w ∈ (match initializer.listed? with
        | some items => items.elements
        | none => if dimensions.areZero then [] else dimensions.elements),
      Within (c.exprSlot w) (newArray initializer dimensions.areZero (c.items? initializer)
        (c.exprItems dimensions)) := by
  intro w hw
  cases hl : initializer.listed? with
  | some items =>
    rw [hl] at hw
    obtain ⟨l, hi, hm⟩ := c.mem_items? hl hw
    rw [hi, newArray]
    exact .block hm
  | none =>
    rw [hl] at hw
    rw [c.items?_eq_none hl, newArray] at hf ⊢
    by_cases hn : initializer.isNull = true
    · cases hz : dimensions.areZero with
      | true =>
        rw [hz] at hw
        cases hw
      | false =>
        rw [hz] at hw
        simp only [hn, Bool.not_true, Bool.false_eq_true, if_false]
        exact .between _ _ (.commaSeparated (c.mem_exprItems hw))
    · simp [hn] at hf

/-- The members that a new object is given. -/
theorem within_newMembers {initializer : Value} :
    ∀ w ∈ initializer.listed?.elim [] Value.elements,
      Within (c.exprSlot w) (newMembers initializer (c.items? initializer)) := by
  intro w hw
  cases hl : initializer.listed? with
  | none =>
    rw [hl] at hw
    cases hw
  | some items =>
    rw [hl] at hw
    obtain ⟨l, hi, hm⟩ := c.mem_items? hl hw
    have hset : items.isSet = true := by
      cases items with
      | list items => cases items with
        | nil => cases hw
        | cons => rfl
      | _ => cases hw
    unfold newMembers
    simp only [hl, hi, hset, if_true]
    exact .right (.block hm)

theorem within_functionBody {body : Value} {statements : Script}
    (hf : (c.functionBody body statements).fault = none) (h : Within t statements) :
    Within t (c.functionBody body statements) := by
  unfold functionBody at hf ⊢
  split_ifs at hf ⊢
  · exact .left (.right (.body h))
  · cases hf

/-- A property that is read with indices. -/
theorem within_indexer {target indices : Value}
    (hf : (c.expr (.propertyIndexer target indices)).fault = none) :
    ∀ w ∈ target.accessSlots ++ indices.elements,
      Within (c.exprSlot w) (c.expr (.propertyIndexer target indices)) := by
  rw [expr] at hf ⊢
  by_cases hp : ∃ property owner, target = .expr (.property property owner)
  · obtain ⟨property, owner, rfl⟩ := hp
    rw [property?, Option.map_some, Option.getD_some] at hf ⊢
    obtain ⟨ht, ha⟩ := c.within_read hf
    rw [Value.accessSlots, List.forall_mem_append, Value.forall_present]
    exact ⟨fun hn => (Within.asTarget hn).trans ht, fun w hw => ha _ (c.mem_exprItems hw)⟩
  · rw [c.property?_eq_none fun property owner ht => hp ⟨property, owner, ht⟩] at hf
    cases hf

/-- What an address is taken of, or the pointer itself. -/
theorem within_dereference (operand : Value) :
    ∀ s ∈ c.exprSites (.dereference operand),
      Within (s.script c) (c.expr (.dereference operand)) := by
  rw [expr]
  cases operand with
  | expr e =>
    cases e with
    | addressOf inner =>
      rw [exprSites, List.forall_mem_singleton, pointee?, Option.getD_some]
      exact .refl
    | _ =>
      rw [exprSites, List.forall_mem_singleton]
      · exact .refl
      · simp
  | _ =>
    rw [exprSites, List.forall_mem_singleton]
    · exact .refl
    · simp

theorem within_expr (e : Expr) (hf : (c.expr e).fault = none) :
    ∀ s ∈ c.exprSites e, Within (s.script c) (c.expr e) := by
  cases e with
  | assign target value =>
    rw [expr] at hf ⊢
    rw [exprSites, List.forall_mem_map]
    cases hc : c.counted? target value with
    | some amount =>
      obtain ⟨call, hcall⟩ := c.counter?_of_counted? (c.exprSlot target) hc
      rw [hcall, Option.getD_some] at hf ⊢
      simp only [List.forall_mem_cons]
      exact ⟨.left (.left (.left (.right .refl))), .left (.right .refl), List.forall_mem_nil _⟩
    | none =>
      rw [c.counter?_of_not_counted? _ hc, Option.getD_none] at hf ⊢
      exact c.within_assignment hf
  | initMember member value =>
    rw [exprSites, expr, List.forall_mem_singleton]
    exact .right .refl
  | field member target | event member target | method member target =>
    rw [exprSites, expr, List.forall_mem_map, Value.forall_present]
    exact fun hn => .left (.asTarget hn)
  | property member target =>
    rw [expr] at hf
    rw [exprSites, expr, List.forall_mem_map, Value.forall_present]
    exact fun hn => (Within.asTarget hn).trans (c.within_read hf).1
  | delegateCreate type method target =>
    rw [exprSites, expr, List.forall_mem_map, Value.forall_present]
    exact fun hn => .right (.between _ _ (.left (.optionally hn (.left .refl))))
  | stackAllocate type operand =>
    rw [exprSites, expr, List.forall_mem_singleton]
    exact .right (.between _ _ .refl)
  | unary operator operand =>
    rw [expr] at hf
    rw [exprSites, expr, List.forall_mem_singleton]
    exact .unary operator hf
  | tryCast operand type | canCast operand type =>
    rw [exprSites, expr, List.forall_mem_singleton]
    exact .between _ _ (.left (.left .refl))
  | cast operand type =>
    rw [exprSites, expr, List.forall_mem_singleton]
    exact .refl
  | lambda parameters body =>
    rw [exprSites, expr, List.forall_mem_singleton]
    exact .left (.right .refl)
  | valueOfTyped operand type =>
    rw [exprSites, expr, List.forall_mem_singleton]
    exact .between _ _ (.left .refl)
  | addressOf operand | addressReference operand | addressOut operand | typeOfTyped operand
  | createTyped operand =>
    rw [exprSites, expr, List.forall_mem_singleton]
    exact .between _ _ .refl
  | dereference operand =>
    exact c.within_dereference operand
  | block items =>
    rw [exprSites, expr, List.forall_mem_map]
    exact fun w hw => .block (c.mem_exprItems hw)
  | arrayCreate type dimensions initializer =>
    rw [expr] at hf
    rw [exprSites, expr, List.forall_mem_map]
    exact c.within_newArray hf
  | binary left operator right =>
    rw [expr] at hf
    rw [exprSites, expr, List.forall_mem_cons, List.forall_mem_singleton]
    exact Within.binary hf
  | condition test yes no =>
    rw [exprSites, expr]
    simp only [List.forall_mem_cons]
    exact ⟨.between _ _ (.left (.left (.left (.left .refl)))),
      .between _ _ (.left (.left (.right .refl))), .between _ _ (.right .refl), List.forall_mem_nil _⟩
  | coalesce subject fallback =>
    rw [exprSites, expr, List.forall_mem_cons, List.forall_mem_singleton]
    exact ⟨.left (.left (.left (.right .refl))), .left (.right .refl)⟩
  | function parameters body type =>
    rw [expr] at hf
    rw [exprSites, expr, List.forall_mem_map, Value.forall_present]
    have hb : (c.functionBody body (body.optionally (c.stmtSlot body))).fault = none :=
      Within.fault (.left (.right (.indented .refl))) hf
    exact fun hn => .left (.right (.indented (c.within_functionBody hb (.optionally hn .refl))))
  | propertyIndexer target indices =>
    rw [exprSites, List.forall_mem_map]
    exact c.within_indexer hf
  | arrayIndexer target items =>
    rw [exprSites, expr, List.forall_mem_map, List.forall_mem_cons]
    refine ⟨.left .refl, fun w hw => .right ?_⟩
    exact (Within.between _ _ .refl).trans
      (.concat (List.mem_map_of_mem (f := bracketed) (c.mem_exprItems hw)))
  | invoke target items =>
    rw [exprSites, expr, List.forall_mem_map, List.forall_mem_cons]
    exact ⟨.left (.asCallee target),
      fun w hw => .right (.between _ _ (.commaSeparated (c.mem_exprItems hw)))⟩
  | delegateInvoke target items =>
    rw [exprSites, expr, List.forall_mem_map, List.forall_mem_cons]
    exact ⟨.left .refl, fun w hw => .right (.between _ _ (.commaSeparated (c.mem_exprItems hw)))⟩
  | objectCreate type constructor arguments initializer =>
    rw [exprSites, expr, List.forall_mem_map, List.forall_mem_append]
    exact ⟨fun w hw => .left (.right (.between _ _ (.commaSeparated (c.mem_exprItems hw)))),
      fun w hw => .right (c.within_newMembers w hw)⟩
  | query source body =>
    rw [exprSites, expr, List.forall_mem_cons, List.forall_mem_singleton]
    exact ⟨.between _ _ (.left .refl), .between _ _ (.right (.indented .refl))⟩
  | _ => exact List.forall_mem_nil _

theorem within_stmt (s : Stmt) : ∀ t ∈ stmtSites s, Within (t.script c) (c.stmt s) := by
  cases s with
  | block statements =>
    rw [stmtSites, stmt, List.forall_mem_map]
    exact fun w hw => .concat (c.mem_stmtItems hw)
  | expression value =>
    rw [stmtSites, stmt]
    split_ifs
    · exact List.forall_mem_nil _
    · rw [List.forall_mem_singleton]
      exact .simple .refl
  | labeled mark label statement =>
    rw [stmtSites, stmt, List.forall_mem_map, Value.forall_present]
    exact fun hn => .right (.optionally hn .refl)
  | condition test yes no =>
    rw [stmtSites, stmt]
    simp only [List.forall_mem_append, List.forall_mem_map, Value.forall_present,
      Value.forall_filled]
    refine ⟨⟨fun hn => .left (.left (.right (.asCondition hn))),
      fun hn => .left (.right (.braced (.optionally hn .refl)))⟩, fun statements hv hs => ?_⟩
    exact .right (.optionally (by rw [hv]; rfl) (Within.unlessEmpty hv hs (.right (.braced .refl))))
  | «return» value =>
    rw [stmtSites, stmt, List.forall_mem_map, Value.forall_present]
    exact fun hn => .simple (.right (.optionally hn (.right .refl)))
  | throw value =>
    rw [stmtSites, stmt, List.forall_mem_map, Value.forall_present]
    intro hn
    rw [hn]
    exact .simple (.right .refl)
  | «for» start test increment body =>
    rw [stmtSites, stmt]
    simp only [List.forall_mem_append, List.forall_mem_map, Value.forall_present]
    exact ⟨⟨⟨fun hn => .left (.left (.left (.left (.left (.left (.left (.left (.right
        (.optionally hn .refl))))))))),
      fun hn => .left (.left (.left (.left (.left (.left (.right (.optionally hn .refl)))))))⟩,
      fun hn => .left (.left (.left (.right (.optionally hn .refl))))⟩,
      fun hn => .right (.braced (.optionally hn .refl))⟩
  | forEach bound source body | fixed bound source body =>
    rw [stmtSites, stmt]
    simp only [List.forall_mem_cons, List.forall_mem_map, Value.forall_present]
    exact ⟨.left (.left (.right .refl)), fun hn => .right (.braced (.optionally hn .refl))⟩
  | «using» resource body =>
    rw [stmtSites, stmt]
    simp only [List.forall_mem_append, List.forall_mem_map, Value.forall_present]
    refine ⟨fun hn => ?_, fun hn => .left (.left (.left (.left (.left (.left
      (.right (.braced (.optionally hn .refl))))))))⟩
    cases hr : resource.assignedVariable? with
    | some bound =>
      rw [acquire, hr]
      exact .left (.left (.left (.left (.left (.left (.left (.left (.left (.simple .refl)))))))))
    | none =>
      rw [release, hr]
      exact .left (.left (.right (.indented (.left (.left (.asTarget hn))))))
  | «while» test body | lock test body =>
    rw [stmtSites, stmt]
    simp only [List.forall_mem_append, List.forall_mem_map, Value.forall_present]
    exact ⟨fun hn => .left (.right (.asCondition hn)),
      fun hn => .right (.braced (.optionally hn .refl))⟩
  | «do» test body =>
    rw [stmtSites, stmt]
    simp only [List.forall_mem_append, List.forall_mem_map, Value.forall_present]
    exact ⟨fun hn => .simple (.right (.asCondition hn)),
      fun hn => .simple (.left (.left (.right (.braced (.optionally hn .refl)))))⟩
  | «try» body catches fault last =>
    rw [stmtSites, stmt]
    simp only [List.forall_mem_append, List.forall_mem_map, Value.forall_present,
      Value.forall_filled]
    exact ⟨⟨⟨fun hn => .left (.left (.left (.left (.right (.braced (.optionally hn .refl)))))),
      fun w hw => .left (.left (.left (.right (.concat (c.mem_catchItems hw)))))⟩,
      fun statements hv hs => .left (.left (.right (Within.unlessEmpty hv hs
        (.right (.braced (.left .refl))))))⟩,
      fun statements hv hs => .left (.right (Within.unlessEmpty hv hs (.right (.braced .refl))))⟩
  | attach event listener | detach event listener =>
    rw [stmtSites, stmt, List.forall_mem_cons, List.forall_mem_singleton]
    exact ⟨.simple (.left (.left .refl)), .simple (.right .refl)⟩
  | switch subject cases =>
    rw [stmtSites, stmt]
    simp only [List.forall_mem_append, List.forall_mem_map, Value.forall_present]
    exact ⟨fun hn => .left (.left (.left (.left (.left (.right (.asCondition hn)))))),
      fun w hw => .left (.left (.right (.concat (c.mem_switchItems subject hw))))⟩
  | memoryCopy first second third | memoryFill first second third =>
    rw [stmtSites, stmt]
    simp only [List.forall_mem_cons]
    exact ⟨.simple (.between _ _ (.commaSeparated (by simp [Site.script]))),
      .simple (.between _ _ (.commaSeparated (by simp [Site.script]))),
      .simple (.between _ _ (.commaSeparated (by simp [Site.script]))), List.forall_mem_nil _⟩
  | _ => exact List.forall_mem_nil _

end Context

/-- What a render goes on to is a part of it. -/
theorem Site.within_of_mem_next (c : Context) (s : Site) (hf : (s.script c).fault = none) :
    ∀ t ∈ s.next c, Within (t.script c) (s.script c) := by
  cases s with
  | expr v =>
    cases v with
    | expr e => exact fun t ht => .later (c.within_expr e hf t ht)
    | _ => exact List.forall_mem_nil _
  | stmt v =>
    cases v with
    | stmt s => exact fun t ht => .later (c.within_stmt s t ht)
    | _ => exact List.forall_mem_nil _
  | label subject v =>
    have hwhole : Within (c.exprSlot v) (caseLabel (c.exprSlot v)) := .left (.left (.right .refl))
    cases v with
    | expr e =>
      cases e with
      | binary left operator right =>
        rw [next, script, Context.caseLabels]
        split_ifs
        · rw [List.forall_mem_cons, List.forall_mem_singleton]
          exact ⟨.left .refl, .right .refl⟩
        · rw [List.forall_mem_singleton]
          exact .left (.left (.right .refl))
        · rw [List.forall_mem_singleton]
          exact hwhole
      | _ => exact List.forall_mem_singleton.2 hwhole
    | _ => exact List.forall_mem_singleton.2 hwhole
  | catchClause v =>
    cases v with
    | clause k =>
      cases k with
      | «catch» body bound test =>
        rw [next, script, Context.catchClause]
        simp only [List.forall_mem_append, List.forall_mem_map, Value.forall_present]
        split_ifs with ht
        · exact ⟨fun hn => by simp [ht] at hn, fun hn => .right (.braced (.optionally hn .refl))⟩
        · exact ⟨fun hn => .right (.left (.right (.indented (.left (.left
            (.right (.asCondition hn))))))),
            fun hn => .right (.left (.right (.indented (.left
              (.right (.braced (.optionally hn .refl)))))))⟩
      | _ => exact List.forall_mem_nil _
    | _ => exact List.forall_mem_nil _
  | switchCase subject v =>
    cases v with
    | clause k =>
      cases k with
      | case body test =>
        rw [next, script, Context.switchCase]
        simp only [List.forall_mem_cons, List.forall_mem_map, Value.forall_present]
        exact ⟨.left .refl, fun hn => .right (.indented (.body (.optionally hn .refl)))⟩
      | default body =>
        rw [next, script, Context.switchCase, List.forall_mem_map, Value.forall_present]
        exact fun hn => .right (.indented (.body (.optionally hn .refl)))
      | _ => exact List.forall_mem_nil _
    | _ => exact List.forall_mem_nil _
  | querySource v =>
    cases v with
    | clause k =>
      cases k with
      | «from» bound source | «let» bound source => exact List.forall_mem_singleton.2 (.right .refl)
      | _ => exact List.forall_mem_nil _
    | stmt s =>
      cases s with
      | forEach bound source body | fixed bound source body =>
        exact List.forall_mem_singleton.2 (.right .refl)
      | _ => exact List.forall_mem_nil _
    | _ => exact List.forall_mem_nil _
  | queryClause v =>
    cases v with
    | clause k =>
      cases k with
      | «from» bound value | «where» value | «let» bound value =>
        exact List.forall_mem_singleton.2 (.right .refl)
      | join bound source on equality into =>
        rw [next, script, Context.queryClause]
        simp only [List.forall_mem_cons]
        exact ⟨.left (.left (.left (.left (.left (.right .refl))))),
          .left (.left (.left (.right .refl))), .left (.right .refl), List.forall_mem_nil _⟩
      | order orderings =>
        rw [next, script, Context.queryClause, List.forall_mem_map]
        exact fun w hw => .right (.commaSeparated (c.mem_orderingItems hw))
      | _ => exact List.forall_mem_nil _
    | _ => exact List.forall_mem_nil _
  | ordering v =>
    cases v with
    | clause k =>
      cases k with
      | ordering key direction => exact List.forall_mem_singleton.2 (.left .refl)
      | _ => exact List.forall_mem_nil _
    | _ => exact List.forall_mem_nil _
  | queryOperation v =>
    cases v with
    | clause k =>
      cases k with
      | select value => exact List.forall_mem_singleton.2 (.right .refl)
      | group item key =>
        rw [next, script, Context.queryOperation, List.forall_mem_cons, List.forall_mem_singleton]
        exact ⟨.left (.left (.right .refl)), .right .refl⟩
      | _ => exact List.forall_mem_nil _
    | _ => exact List.forall_mem_nil _
  | queryBody v =>
    cases v with
    | clause k =>
      cases k with
      | queryBody operation clauses continuation =>
        rw [next, script, Context.queryBody]
        simp only [List.forall_mem_append, List.forall_mem_map, List.forall_mem_cons]
        exact ⟨fun w hw => .left (.left (.left ((Within.right .refl).trans
          (.concat (c.mem_queryClauseItems hw))))), .left (.right .refl), .right .refl, List.forall_mem_nil _⟩
      | _ => exact List.forall_mem_nil _
    | _ => exact List.forall_mem_nil _
  | queryContinuation v =>
    cases v with
    | clause k =>
      cases k with
      | continuation bound body | «catch» body bound test =>
        exact List.forall_mem_singleton.2 (.right .refl)
      | _ => exact List.forall_mem_nil _
    | stmt s =>
      cases s with
      | forEach bound source body | fixed bound source body =>
        exact List.forall_mem_singleton.2 (.right .refl)
      | _ => exact List.forall_mem_nil _
    | _ => exact List.forall_mem_nil _

end Scribe
