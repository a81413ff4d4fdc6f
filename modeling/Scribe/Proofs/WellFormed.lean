import Scribe.Literal
import Scribe.Proofs.Described
import Scribe.Proofs.Locals
import Scribe.Proofs.Setter
import Scribe.Proofs.Slots

/-!
# Well-formed trees

`Program.WellFormed`: every slot of a tree holds what it is declared to hold, operators and literals
have texts, properties have the accessors that are called, and the types and members that the render
gets to can be written. Slots that are never written, such as the type of a cast, need only hold a
type; those that a render leaves out in one tree and not in another are told apart by `Site.Reaches`.

A render of a proper tree goes on to slots that hold what is rendered there
(`Site.holds_of_mem_next`).
-/

namespace Scribe

/-! ### Slots -/

namespace Value

def IsExpr (v : Value) : Prop := ∃ e, v = .expr e

def IsStmt (v : Value) : Prop := ∃ s, v = .stmt s

def IsBlock (v : Value) : Prop := ∃ statements, v = .stmt (.block statements)

/-- The slot holds the elements of an array or the members of an object. -/
def IsInitializer (v : Value) : Prop := ∃ items, v = .expr (.block items)

def IsProperty (v : Value) : Prop := ∃ property target, v = .expr (.property property target)

def IsEvent (v : Value) : Prop := ∃ event target, v = .expr (.event event target)

def IsType : Value → Prop
  | .entity ⟨.type, _⟩ | .entity ⟨.genericParameter, _⟩ | .type _ => True
  | _ => False

/-- The slot holds the clause that a query opens with. -/
def IsSource (v : Value) : Prop := ∃ bound source, v = .clause (.from bound source)

def IsOrdering (v : Value) : Prop := ∃ key direction, v = .clause (.ordering key direction)

def IsQueryBody (v : Value) : Prop :=
  ∃ operation clauses rest, v = .clause (.queryBody operation clauses rest)

def IsContinuation (v : Value) : Prop := ∃ bound body, v = .clause (.continuation bound body)

def IsCatch (v : Value) : Prop := ∃ body bound test, v = .clause (.catch body bound test)

/-- The slot holds a clause of a query, of a known kind. -/
inductive IsQueryClause : Value → Prop
  | from (bound source : Value) : IsQueryClause (.clause (.from bound source))
  | where (test : Value) : IsQueryClause (.clause (.where test))
  | let (bound value : Value) : IsQueryClause (.clause (.let bound value))
  | join (bound source on equality into : Value) :
      IsQueryClause (.clause (.join bound source on equality into))
  | order (orderings : Value) : IsQueryClause (.clause (.order orderings))

/-- The slot holds what a query makes of each element. -/
inductive IsOperation : Value → Prop
  | select (value : Value) : IsOperation (.clause (.select value))
  | group (item key : Value) : IsOperation (.clause (.group item key))

/-- The slot holds a case with a condition, or the default. -/
inductive IsCase : Value → Prop
  | case (body test : Value) : IsCase (.clause (.case body test))
  | default (body : Value) : IsCase (.clause (.default body))

end Value

open Value (IsExpr IsStmt IsBlock IsInitializer IsType IsQueryClause IsOrdering IsContinuation IsCatch
  IsCase IsEntity)

/-- The slots of an expression hold what they are declared to hold. Operators and literals are left
to `Value.HasKnownOperator` and `Value.HasText`. -/
def Expr.Fits : Expr → Prop
  | .bare => False
  | .argumentList | .base | .this | .literal .. => True
  | .assign target value => target.IsExpr ∧ value.IsExpr
  | .typeOf type | .sizeOf type | .genericDefault type => type.IsType
  | .fieldOf member type => member.IsEntity .field ∧ type.IfGiven IsType
  | .methodOf member type => member.IsEntity .method ∧ type.IfGiven IsType
  | .initMember member value => (member.IsEntity .field ∨ member.IsEntity .property) ∧ value.IsExpr
  | .typeName type => type.IsEntity .type
  | .field member target => member.IsEntity .field ∧ target.IfGiven IsExpr
  | .event member target => member.IsEntity .event ∧ target.IfGiven IsExpr
  | .method member target => member.IsEntity .method ∧ target.IfGiven IsExpr
  | .property member target => member.IsEntity .property ∧ target.IfGiven IsExpr
  | .stackAllocate type size => type.IsType ∧ size.IsExpr
  | .block items => items.IsListOf IsExpr
  | .arrayCreate type dimensions initializer =>
    type.IsType ∧ dimensions.IsListOf IsExpr ∧ initializer.IfGiven IsInitializer
  | .unary _ operand => operand.IsExpr
  | .binary left _ right => left.IsExpr ∧ right.IsExpr
  | .tryCast operand type | .canCast operand type | .cast operand type =>
    operand.IsExpr ∧ type.IsType
  | .condition test yes no => test.IsExpr ∧ yes.IsExpr ∧ no.IsExpr
  | .coalesce subject fallback => subject.IsExpr ∧ fallback.IsExpr
  | .delegateCreate type member target =>
    type.IsType ∧ member.IsEntity .method ∧ target.IfGiven IsExpr
  | .function parameters body type =>
    parameters.IsListOf (IsEntity .parameter) ∧ body.IfGiven IsBlock ∧ type.IfGiven IsType
  | .lambda parameters body => parameters.IsListOf (IsEntity .variable) ∧ body.IsExpr
  | .argument parameter => parameter.IsEntity .parameter
  | .declare bound | .variable bound => bound.IsEntity .variable
  | .propertyIndexer target indices => target.IsProperty ∧ indices.IsListOf IsExpr
  | .arrayIndexer target items | .invoke target items | .delegateInvoke target items =>
    target.IsExpr ∧ items.IsListOf IsExpr
  | .objectCreate type constructor arguments initializer =>
    type.IsType ∧ constructor.IfGiven (IsEntity .method) ∧ arguments.IsListOf IsExpr ∧
      initializer.IfGiven IsInitializer
  | .addressOf operand | .addressReference operand | .addressOut operand | .dereference operand
  | .typeOfTyped operand | .createTyped operand => operand.IsExpr
  | .valueOfTyped operand type => operand.IsExpr ∧ type.IfGiven IsType
  | .snippet text => text.IsText
  | .query source body => source.IsSource ∧ body.IsQueryBody

/-- The slots of a statement hold what they are declared to hold. -/
def Stmt.Fits : Stmt → Prop
  | .bare => False
  | .break | .continue | .debugBreak => True
  | .block statements => statements.IsListOf IsStmt
  | .expression value => value.IsExpr
  | .goto _ label => label.IsText
  | .labeled _ label statement => label.IsText ∧ statement.IfGiven IsStmt
  | .condition test yes no => test.IsExpr ∧ yes.IsBlock ∧ no.IsBlock
  | .return value | .throw value => value.IfGiven IsExpr
  | .for start test increment body =>
    start.IfGiven IsStmt ∧ test.IfGiven IsExpr ∧ increment.IfGiven IsStmt ∧ body.IsBlock
  | .forEach bound source body | .fixed bound source body =>
    bound.IsEntity .variable ∧ source.IsExpr ∧ body.IsBlock
  | .using resource body => resource.IsExpr ∧ body.IsBlock
  | .while test body | .do test body => test.IfGiven IsExpr ∧ body.IsBlock
  | .try body catches fault last =>
    body.IsBlock ∧ catches.IsListOf IsCatch ∧ fault.IsBlock ∧ last.IsBlock
  | .attach event listener | .detach event listener => event.IsEvent ∧ listener.IsExpr
  | .switch subject cases => subject.IsExpr ∧ cases.IsListOf IsCase
  | .memoryCopy first second third | .memoryFill first second third =>
    first.IsExpr ∧ second.IsExpr ∧ third.IsExpr
  | .lock subject body => subject.IsExpr ∧ body.IsBlock
  | .comment text => text.IsText

/-- The slots of a clause hold what they are declared to hold, and a case has a condition. -/
def Clause.Fits : Clause → Prop
  | .bare | .bareClause | .bareOperation | .bareCase _ => False
  | .from bound value | .let bound value => bound.IsEntity .variable ∧ value.IsExpr
  | .where test => test.IsExpr
  | .join bound source on equality into =>
    bound.IsEntity .variable ∧ source.IsExpr ∧ on.IsExpr ∧ equality.IsExpr ∧
      into.IfGiven (IsEntity .variable)
  | .ordering key _ => key.IsExpr
  | .order orderings => orderings.IsListOf IsOrdering
  | .select value => value.IsExpr
  | .group item key => item.IsExpr ∧ key.IsExpr
  | .continuation bound body => bound.IsEntity .variable ∧ body.IsQueryBody
  | .queryBody operation clauses rest =>
    operation.IsOperation ∧ clauses.IsListOf IsQueryClause ∧ rest.IfGiven IsContinuation
  | .catch body bound test =>
    body.IsBlock ∧ bound.IfGiven (IsEntity .variable) ∧ test.IfGiven IsExpr
  | .case body test => body.IfGiven IsBlock ∧ test.IsExpr
  | .default body => body.IfGiven IsBlock

namespace Value

/-- A node has slots that fit, and a variable or a parameter has a name. -/
def Fits (p : Program) : Value → Prop
  | .entity ⟨.variable, i⟩ => (p.localVariable ⟨i⟩).name.IsText
  | .entity ⟨.parameter, i⟩ => (p.parameter ⟨i⟩).name.IsText
  | .expr e => e.Fits
  | .stmt s => s.Fits
  | .clause k => k.Fits
  | _ => True

/-- An operator is in its table. -/
def HasKnownOperator : Value → Prop
  | .expr (.unary operator _) =>
    (leadingSymbol? operator).isSome = true ∨ (trailingSymbol? operator).isSome = true
  | .expr (.binary _ operator _) => (binarySymbol? operator).isSome = true
  | _ => True

/-- A literal has a text. -/
def HasText (p : Program) : Value → Prop
  | .expr (.literal value kind) => ∃ t, Literal.text p .auto value kind = .ok t
  | _ => True

/-- A property has a getter, and a setter too where it is assigned to. -/
def HasAccessors (p : Program) : Value → Prop
  | .expr (.property (.entity ⟨.property, i⟩) _) => (p.property ⟨i⟩).getter.isNull = false
  | .expr (.assign target _) =>
    ∀ id, target.assignedProperty? = some id → (p.property id).setter.isNull = false
  | _ => True

/-- What a node has to have wherever it stands. -/
structure Proper (p : Program) (v : Value) : Prop where
  fits : v.Fits p
  operator : v.HasKnownOperator
  literal : v.HasText p
  accessors : v.HasAccessors p

/-- All that stands in the tree is proper. -/
def AllProper (p : Program) (v : Value) : Prop := ∀ w, Inside w v → w.Proper p

end Value

/-! ### Types and members -/

/-- The types and members that an expression writes can be written. An assignment that counts its
target calls no setter. -/
def Expr.Describes (p : Program) : Expr → Prop
  | .assign target value =>
    Context.counted? { program := p } target value = none → ∀ id, target.assignedProperty? = some id →
      (p.property id).setter.IfGiven p.UsesAccessor
  | .typeOf type | .sizeOf type | .genericDefault type | .stackAllocate type _ | .tryCast _ type
  | .canCast _ type => p.Known type
  | .fieldOf member type => p.UsesField member ∧ type.IfGiven p.Known
  | .methodOf member type => p.UsesMethod member ∧ type.IfGiven p.Known
  | .initMember member _ => p.UsesField member ∨ p.UsesProperty member
  | .typeName type => p.IsNamedType type
  | .field member _ => p.UsesField member
  | .event member _ => p.UsesEvent member
  | .method member _ => p.UsesMethod member
  | .property (.entity ⟨.property, i⟩) _ => (p.property ⟨i⟩).getter.IfGiven p.UsesAccessor
  | .propertyIndexer (.expr (.property (.entity ⟨.property, i⟩) _)) _ =>
    (p.property ⟨i⟩).getter.IfGiven p.UsesAccessor
  | .delegateCreate type member _ => p.Known type ∧ p.UsesMethod member
  | .objectCreate type constructor _ _ =>
    p.Known type ∧ (type.IsEntity .type → constructor.IfGiven p.UsesAccessor)
  | .valueOfTyped _ type => type.IfGiven p.Known
  | _ => True

/-- What is written at a site besides the sites that it goes on to can be written. -/
def Site.Describes (p : Program) : Site → Prop
  | .expr (.expr e) => e.Describes p
  | _ => True

/-- The tree at a site is well formed: all that stands in it is proper, and wherever the render gets
to, the types and members that are written can be. -/
structure Program.WellFormed (p : Program) (s : Site) : Prop where
  proper : s.slot.AllProper p
  described : ∀ t, s.Reaches { program := p } t → t.Describes p

/-! ### Slots of proper trees -/

namespace Value

variable {p : Program} {P : Value → Prop} {u v w : Value}

theorem AllProper.node (h : v.AllProper p) : v.Proper p := h v (.refl v)

theorem AllProper.of_slots (h : v.Proper p) (hs : ∀ w ∈ v.slots, w.AllProper p) : v.AllProper p :=
  forall_inside_iff.2 ⟨h, hs⟩

theorem AllProper.expr {e : Expr} (h : (Value.expr e).AllProper p) : e.Fits := h.node.fits

theorem AllProper.stmt {s : Stmt} (h : (Value.stmt s).AllProper p) : s.Fits := h.node.fits

theorem AllProper.clause {k : Clause} (h : (Value.clause k).AllProper p) : k.Fits := h.node.fits

theorem AllProper.inside (h : v.AllProper p) (hw : Inside w v) : w.AllProper p :=
  fun u hu => h u (hu.trans hw)

theorem AllProper.slots (h : v.AllProper p) : v.slots.Forall (AllProper p) :=
  List.forall_iff_forall_mem.2 fun w hw => h.inside (.slot (.refl w) hw)

theorem IsListOf.elements (h : v.IsListOf P) : ∀ w ∈ v.elements, P w := by
  obtain ⟨items, rfl, hitems⟩ := h
  exact hitems

theorem IsBlock.isStmt (h : v.IsBlock) : v.IsStmt := by
  obtain ⟨statements, rfl⟩ := h
  exact ⟨_, rfl⟩

theorem IsBlock.filled (h : v.IsBlock) : ∀ w ∈ v.filled, w.IsStmt := by
  rw [forall_filled]
  exact fun _ _ _ => h.isStmt

theorem IfGiven.imp {Q : Value → Prop} (h : v.IfGiven P) (hPQ : P v → Q v) : v.IfGiven Q :=
  fun hg => hPQ (h hg)

/-- The slots that an assignment to a proper target writes hold expressions. -/
theorem AllProper.assignedSlots (h : v.AllProper p) (hv : v.IsExpr) :
    ∀ w ∈ v.assignedSlots, w.IsExpr := by
  unfold Value.assignedSlots
  split
  · obtain ⟨-, ht⟩ := h.expr
    exact forall_present.2 ht
  · obtain ⟨-, hi⟩ := h.expr
    obtain ⟨htarget, -⟩ := h.slots
    obtain ⟨-, ht⟩ := htarget.expr
    rw [List.forall_mem_append]
    exact ⟨forall_present.2 ht, hi.elements⟩
  · exact List.forall_mem_singleton.2 hv

/-- What a proper initializer lists are expressions. -/
theorem AllProper.listed {items : Value} (h : v.AllProper p) (hv : v.IfGiven IsInitializer)
    (hl : v.listed? = some items) : items.IsListOf IsExpr := by
  cases v with
  | scalar s => cases hl
  | expr e =>
    obtain ⟨_, he⟩ := hv rfl
    cases he
    cases hl
    exact h.node.fits
  | _ =>
    obtain ⟨_, he⟩ := hv rfl
    cases he

end Value

/-! ### What sites hold -/

/-- The slot of a site holds what is rendered there. -/
def Site.Holds : Site → Prop
  | .expr v | .label _ v => v.IsExpr
  | .stmt v => v.IsStmt
  | .catchClause v => v.IsCatch
  | .switchCase _ v => v.IsCase
  | .querySource v => v.IsSource
  | .queryClause v => v.IsQueryClause
  | .ordering v => v.IsOrdering
  | .queryOperation v => v.IsOperation
  | .queryBody v => v.IsQueryBody
  | .queryContinuation v => v.IfGiven Value.IsContinuation

namespace Context

variable (c : Context) {p : Program}

theorem exprSites_hold (e : Expr) (h : (Value.expr e).AllProper p) :
    ∀ t ∈ c.exprSites e, t.Holds := by
  have hfit := h.expr
  cases e with
  | assign target value =>
    obtain ⟨htarget, hvalue⟩ := hfit
    obtain ⟨ht, hv⟩ := h.slots
    rw [exprSites, List.forall_mem_map]
    cases hc : c.counted? target value with
    | some amount =>
      have hamount : amount.IsExpr := by
        unfold counted? at hc
        split at hc
        · obtain ⟨-, -, rfl⟩ := Option.map_eq_some_iff.1 hc
          obtain ⟨-, hr⟩ := hv.expr
          exact hr
        · cases hc
      exact List.forall_mem_cons.2 ⟨htarget, List.forall_mem_singleton.2 hamount⟩
    | none =>
      rw [List.forall_mem_append]
      exact ⟨ht.assignedSlots htarget, List.forall_mem_singleton.2 hvalue⟩
  | field _ target | event _ target | method _ target | property _ target =>
    rw [exprSites, List.forall_mem_map]
    exact Value.forall_present.2 hfit.2
  | delegateCreate _ _ target =>
    rw [exprSites, List.forall_mem_map]
    exact Value.forall_present.2 hfit.2.2
  | dereference operand =>
    have hself : ∀ t ∈ [Site.expr operand], t.Holds := List.forall_mem_singleton.2 hfit
    cases operand with
    | expr e =>
      cases e with
      | addressOf inner =>
        have hin : (Value.expr (.addressOf inner)).AllProper p := h.slots
        exact List.forall_mem_singleton.2 hin.expr
      | _ => exact hself
    | _ => exact hself
  | block items =>
    rw [exprSites, List.forall_mem_map]
    exact hfit.elements
  | arrayCreate type dimensions initializer =>
    obtain ⟨-, hdimensions, hinitializer⟩ := hfit
    obtain ⟨-, -, hi⟩ := h.slots
    rw [exprSites, List.forall_mem_map]
    cases hl : initializer.listed? with
    | some items => exact (hi.listed hinitializer hl).elements
    | none =>
      dsimp only
      split_ifs
      · exact List.forall_mem_nil _
      · exact hdimensions.elements
  | function parameters body type =>
    rw [exprSites, List.forall_mem_map]
    exact Value.forall_present.2 (hfit.2.1.imp Value.IsBlock.isStmt)
  | propertyIndexer target indices =>
    obtain ⟨⟨property, owner, rfl⟩, hindices⟩ := hfit
    obtain ⟨ht, -⟩ := h.slots
    obtain ⟨-, howner⟩ := ht.expr
    rw [exprSites, List.forall_mem_map, List.forall_mem_append]
    exact ⟨Value.forall_present.2 howner, hindices.elements⟩
  | arrayIndexer target items | invoke target items | delegateInvoke target items =>
    rw [exprSites, List.forall_mem_map, List.forall_mem_cons]
    exact ⟨hfit.1, hfit.2.elements⟩
  | objectCreate type constructor arguments initializer =>
    obtain ⟨-, -, harguments, hinitializer⟩ := hfit
    obtain ⟨-, -, -, hi⟩ := h.slots
    rw [exprSites, List.forall_mem_map, List.forall_mem_append]
    refine ⟨harguments.elements, ?_⟩
    cases hl : initializer.listed? with
    | some items => exact (hi.listed hinitializer hl).elements
    | none => exact List.forall_mem_nil _
  | initMember first operand | stackAllocate first operand | lambda first operand =>
    exact List.forall_mem_singleton.2 hfit.2
  | tryCast operand type | canCast operand type | cast operand type | valueOfTyped operand type =>
    exact List.forall_mem_singleton.2 hfit.1
  | unary operator operand => exact List.forall_mem_singleton.2 hfit
  | addressOf operand | addressReference operand | addressOut operand | typeOfTyped operand
  | createTyped operand => exact List.forall_mem_singleton.2 hfit
  | binary first operator second =>
    exact List.forall_mem_cons.2 ⟨hfit.1, List.forall_mem_singleton.2 hfit.2⟩
  | coalesce first second | query first second =>
    exact List.forall_mem_cons.2 ⟨hfit.1, List.forall_mem_singleton.2 hfit.2⟩
  | condition test yes no =>
    simp only [exprSites, List.forall_mem_cons]
    exact ⟨hfit.1, hfit.2.1, hfit.2.2, List.forall_mem_nil _⟩
  | _ => exact List.forall_mem_nil _

theorem stmtSites_hold (s : Stmt) (h : (Value.stmt s).AllProper p) : ∀ t ∈ stmtSites s, t.Holds := by
  have hfit := h.stmt
  cases s with
  | block statements =>
    rw [stmtSites, List.forall_mem_map]
    exact hfit.elements
  | expression value =>
    rw [stmtSites]
    split_ifs
    · exact List.forall_mem_nil _
    · exact List.forall_mem_singleton.2 hfit
  | labeled mark label statement =>
    rw [stmtSites, List.forall_mem_map]
    exact Value.forall_present.2 hfit.2
  | «return» value | throw value =>
    rw [stmtSites, List.forall_mem_map]
    exact Value.forall_present.2 hfit
  | condition test yes no =>
    obtain ⟨htest, hyes, hno⟩ := hfit
    simp only [stmtSites, List.forall_mem_append, List.forall_mem_map]
    exact ⟨⟨Value.forall_present.2 fun _ => htest, Value.forall_present.2 fun _ => hyes.isStmt⟩,
      hno.filled⟩
  | «for» start test increment body =>
    obtain ⟨hstart, htest, hincrement, hbody⟩ := hfit
    simp only [stmtSites, List.forall_mem_append, List.forall_mem_map]
    exact ⟨⟨⟨Value.forall_present.2 hstart, Value.forall_present.2 htest⟩,
      Value.forall_present.2 hincrement⟩, Value.forall_present.2 fun _ => hbody.isStmt⟩
  | forEach bound source body | fixed bound source body =>
    rw [stmtSites, List.forall_mem_cons, List.forall_mem_map]
    exact ⟨hfit.2.1, Value.forall_present.2 fun _ => hfit.2.2.isStmt⟩
  | «using» test body | lock test body =>
    rw [stmtSites, List.forall_mem_append, List.forall_mem_map, List.forall_mem_map]
    exact ⟨Value.forall_present.2 fun _ => hfit.1, Value.forall_present.2 fun _ => hfit.2.isStmt⟩
  | «while» test body | «do» test body =>
    rw [stmtSites, List.forall_mem_append, List.forall_mem_map, List.forall_mem_map]
    exact ⟨Value.forall_present.2 hfit.1, Value.forall_present.2 fun _ => hfit.2.isStmt⟩
  | «try» body catches fault last =>
    obtain ⟨hbody, hcatches, hfault, hlast⟩ := hfit
    simp only [stmtSites, List.forall_mem_append, List.forall_mem_map]
    exact ⟨⟨⟨Value.forall_present.2 fun _ => hbody.isStmt, hcatches.elements⟩, hfault.filled⟩,
      hlast.filled⟩
  | attach event listener | detach event listener =>
    obtain ⟨⟨member, target, rfl⟩, hlistener⟩ := hfit
    exact List.forall_mem_cons.2 ⟨⟨_, rfl⟩, List.forall_mem_singleton.2 hlistener⟩
  | switch subject cases =>
    rw [stmtSites, List.forall_mem_append, List.forall_mem_map, List.forall_mem_map]
    exact ⟨Value.forall_present.2 fun _ => hfit.1, hfit.2.elements⟩
  | memoryCopy first second third | memoryFill first second third =>
    simp only [stmtSites, List.forall_mem_cons]
    exact ⟨hfit.1, hfit.2.1, hfit.2.2, List.forall_mem_nil _⟩
  | _ => exact List.forall_mem_nil _

end Context

/-- A render of a proper tree goes on to slots that hold what is rendered there. -/
theorem Site.holds_of_mem_next {c : Context} {p : Program} {s : Site} (hs : s.Holds)
    (h : s.slot.AllProper p) : ∀ t ∈ s.next c, t.Holds := by
  cases s with
  | expr v =>
    obtain ⟨e, rfl⟩ := hs
    exact c.exprSites_hold e h
  | stmt v =>
    obtain ⟨s, rfl⟩ := hs
    exact Context.stmtSites_hold s h
  | label subject v =>
    have hwhole : ∀ t ∈ [Site.expr v], t.Holds := List.forall_mem_singleton.2 hs
    obtain ⟨e, rfl⟩ := hs
    cases e with
    | binary left operator right =>
      obtain ⟨hl, hr⟩ := Value.AllProper.expr h
      rw [next]
      split_ifs
      · exact List.forall_mem_cons.2 ⟨hl, List.forall_mem_singleton.2 hr⟩
      · exact List.forall_mem_singleton.2 hr
      · exact hwhole
    | _ => exact hwhole
  | catchClause v =>
    obtain ⟨body, bound, test, rfl⟩ := hs
    obtain ⟨hbody, -, htest⟩ := Value.AllProper.clause h
    rw [next, List.forall_mem_append, List.forall_mem_map, List.forall_mem_map]
    exact ⟨Value.forall_present.2 htest, Value.forall_present.2 fun _ => hbody.isStmt⟩
  | switchCase subject v =>
    cases hs with
    | case body test =>
      obtain ⟨hbody, htest⟩ := Value.AllProper.clause h
      rw [next, List.forall_mem_cons, List.forall_mem_map]
      exact ⟨htest, Value.forall_present.2 (hbody.imp Value.IsBlock.isStmt)⟩
    | default body =>
      have hbody := Value.AllProper.clause h
      rw [next, List.forall_mem_map]
      exact Value.forall_present.2 (hbody.imp Value.IsBlock.isStmt)
  | querySource v =>
    obtain ⟨bound, source, rfl⟩ := hs
    obtain ⟨-, hsource⟩ := Value.AllProper.clause h
    exact List.forall_mem_singleton.2 hsource
  | queryClause v =>
    have hfit (k : Clause) (hk : v = .clause k) : k.Fits := by
      subst hk
      exact Value.AllProper.clause h
    cases hs with
    | «from» bound value | «let» bound value => exact List.forall_mem_singleton.2 (hfit _ rfl).2
    | «where» test => exact List.forall_mem_singleton.2 (hfit _ rfl)
    | join bound source on equality into =>
      obtain ⟨-, hsource, hon, hequality, -⟩ := hfit _ rfl
      simp only [next, List.forall_mem_cons]
      exact ⟨hsource, hon, hequality, List.forall_mem_nil _⟩
    | order orderings =>
      rw [next, List.forall_mem_map]
      exact (hfit _ rfl).elements
  | ordering v =>
    obtain ⟨key, direction, rfl⟩ := hs
    exact List.forall_mem_singleton.2 (Value.AllProper.clause h)
  | queryOperation v =>
    cases hs with
    | select value => exact List.forall_mem_singleton.2 (Value.AllProper.clause h)
    | group item key =>
      obtain ⟨hitem, hkey⟩ := Value.AllProper.clause h
      exact List.forall_mem_cons.2 ⟨hitem, List.forall_mem_singleton.2 hkey⟩
  | queryBody v =>
    obtain ⟨operation, clauses, rest, rfl⟩ := hs
    obtain ⟨hoperation, hclauses, hrest⟩ := Value.AllProper.clause h
    rw [next, List.forall_mem_append, List.forall_mem_map, List.forall_mem_cons,
      List.forall_mem_singleton]
    exact ⟨hclauses.elements, hoperation, hrest⟩
  | queryContinuation v =>
    cases hn : v.isNull with
    | true =>
      obtain rfl := Value.isNull_iff.1 hn
      exact List.forall_mem_nil _
    | false =>
      obtain ⟨bound, body, rfl⟩ := hs hn
      obtain ⟨-, hbody⟩ := Value.AllProper.clause h
      exact List.forall_mem_singleton.2 hbody

end Scribe
