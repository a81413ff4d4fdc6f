import Mathlib.Data.List.Basic
import Mathlib.Tactic.SplitIfs
import Scribe.Proofs.Setter
import Scribe.Proofs.Slots

/-!
# Operands in order

The operands of an expression are the variables and the arguments that it uses. `Expr.operands` lists
them by recursion on the tree, in the order of the written form, and the references among the
tokens of a render are just those: `Context.operands_in_order`. A subject that is tested for null is
written twice, a counter does not write the left operand of its value, and an array that is given its
elements does not write its dimensions.

The induction is on the tree, for all the roles that a slot of an expression can play at once
(`Context.CodeUses`). A script that does not fault writes the operands of its parts one after the
other (`Script.operands`).
-/

namespace Scribe

open Script

/-! ### Operands of a tree -/

/-- A variable or a parameter that a target is. -/
def Target.operand? : Target → Option Entity
  | .entity ⟨.variable, i⟩ => some ⟨.variable, i⟩
  | .entity ⟨.parameter, i⟩ => some ⟨.parameter, i⟩
  | _ => none

/-- The variable or the parameter that a slot refers to. -/
def Value.operand? : Value → Option Entity
  | .entity e => (Target.entity e).operand?
  | _ => none

/-- Whether assigning the value counts the target up or down: it is the target with something added to
it or subtracted from it. -/
def Program.counts (p : Program) (target : Value) : Value → Bool
  | .expr (.binary left operator _) =>
    (operator.isText "add" || operator.isText "subtract") && p.same left target
  | _ => false

mutual

/-- The operands of what a slot holds, in the order in which they are written. Of a loop that stands in
for the source of a query they are those of its own source. -/
def Value.operands (p : Program) : Value → List Entity
  | .list items => Value.operandsOfAll p items
  | .expr e => e.operands p
  | .clause k => k.operands p
  | .stmt (.forEach _ source _) | .stmt (.fixed _ source _) => source.operands p
  | _ => []
termination_by structural v => v

def Value.operandsOfAll (p : Program) : List Value → List Entity
  | [] => []
  | first :: rest => first.operands p ++ Value.operandsOfAll p rest
termination_by structural vs => vs

/-- The operands of the right side of a sum or a difference. -/
def Value.amountOperands (p : Program) : Value → List Entity
  | .expr (.binary _ _ right) => right.operands p
  | _ => []
termination_by structural v => v

/-- The operands of what a query goes on with. -/
def Value.continuedOperands (p : Program) : Value → List Entity
  | .clause (.continuation _ body) | .clause (.catch body _ _)
  | .stmt (.forEach _ _ body) | .stmt (.fixed _ _ body) => body.operands p
  | _ => []
termination_by structural v => v

/-- The operands of an expression. Types and members contribute nothing. -/
def Expr.operands (p : Program) : Expr → List Entity
  | .argument bound | .declare bound | .variable bound => bound.operand?.toList
  | .assign target value =>
    target.operands p ++
      (if p.counts target value then value.amountOperands p else value.operands p)
  | .arrayCreate _ dimensions initializer =>
    if initializer.isNull then dimensions.operands p else initializer.operands p
  | .coalesce subject fallback => subject.operands p ++ subject.operands p ++ fallback.operands p
  | .initMember _ operand | .field _ operand | .event _ operand | .method _ operand
  | .property _ operand | .stackAllocate _ operand | .block operand | .unary _ operand
  | .tryCast operand _ | .canCast operand _ | .cast operand _ | .delegateCreate _ _ operand
  | .lambda _ operand | .addressOf operand | .addressReference operand | .addressOut operand
  | .dereference operand | .typeOfTyped operand | .valueOfTyped operand _ | .createTyped operand =>
    operand.operands p
  | .binary first _ second | .propertyIndexer first second | .arrayIndexer first second
  | .invoke first second | .delegateInvoke first second | .objectCreate _ _ first second
  | .query first second => first.operands p ++ second.operands p
  | .condition test yes no => test.operands p ++ yes.operands p ++ no.operands p
  | .bare | .literal .. | .typeOf _ | .fieldOf .. | .methodOf .. | .typeName _ | .argumentList | .base
  | .this | .function .. | .sizeOf _ | .genericDefault _ | .snippet _ => []
termination_by structural e => e

/-- The operands of a part of a query. The operation is written after the clauses. -/
def Clause.operands (p : Program) : Clause → List Entity
  | .from _ operand | .where operand | .let _ operand | .ordering operand _ | .order operand
  | .select operand => operand.operands p
  | .join _ source on equality _ => source.operands p ++ on.operands p ++ equality.operands p
  | .group item key => item.operands p ++ key.operands p
  | .queryBody operation clauses continuation =>
    clauses.operands p ++ operation.operands p ++ continuation.continuedOperands p
  | .bare | .bareClause | .bareOperation | .continuation .. | .catch .. | .bareCase _ | .case ..
  | .default _ => []
termination_by structural k => k

end

namespace Value

variable (p : Program)

theorem operandsOfAll_eq (vs : List Value) : operandsOfAll p vs = vs.flatMap (operands p) := by
  induction vs with
  | nil => rfl
  | cons v vs ih => rw [operandsOfAll, ih, List.flatMap_cons]

theorem operands_of_isNull {v : Value} (h : v.isNull = true) : v.operands p = [] := by
  unfold isNull at h
  split at h
  · rfl
  · cases h

/-- What counts as nothing has no operands. -/
theorem operands_of_not_isSet {v : Value} (h : v.isSet = false) : v.operands p = [] := by
  unfold isSet at h
  split at h
  · rfl
  · next items =>
    have hnil : items = [] := by simpa using h
    rw [hnil]
    rfl
  · cases h

theorem operands_of_items_nil {v : Value} (h : v.items = .ok []) : v.operands p = [] := by
  unfold items at h
  split at h
  · cases h
    rfl
  · rfl
  · rfl
  · cases h

/-- A literal that stands for the size of an array is no operand. -/
theorem operands_of_areZero {v : Value} (h : v.areZero = true) : v.operands p = [] := by
  unfold areZero at h
  split at h
  · rfl
  · cases h

end Value

/-! ### Operands of a script -/

/-- The operand that a token refers to. -/
def Token.operand? : Token → Option Entity
  | .reference _ _ target => target.bind Target.operand?
  | _ => none

namespace Script

variable {a b s : Script} {l : List Script} {us ws : List Entity}

/-- The operands that a script refers to, up to a fault and behind it. -/
def operands : Script → List Entity
  | empty | fail _ => []
  | step s => (s.token?.bind Token.operand?).toList
  | append first second => first.operands ++ second.operands
  | delayed part => (part ()).operands

/-- A run without a fault refers to the operands of its script, on whatever layout. -/
theorem filterMap_operand (h : s.fault = none) (l : Layout) :
    (s.tokens l).filterMap Token.operand? = s.operands := by
  have hplaced (t : Token) (ht : t.isPlaced = true) : t.operand? = none := by
    unfold Token.isPlaced at ht
    split at ht <;> first | rfl | cases ht
  rw [filterMap_tokens hplaced]
  clear l
  induction s with
  | empty => rfl
  | fail f => cases h
  | step s => cases hs : s.token?.bind Token.operand? <;> simp [operands, steps, hs]
  | append a b iha ihb =>
    obtain ⟨ha, hb⟩ := fault_append_eq_none.1 h
    show (steps (a ++ b)).filterMap _ = _
    rw [steps_append_of_none ha, List.filterMap_append, iha ha, ihb hb, operands]
  | delayed part ih => exact ih () h

@[simp] theorem operands_empty : (∅ : Script).operands = [] := rfl
@[simp] theorem operands_fail (f : Fault) : (fail f).operands = [] := rfl
@[simp] theorem operands_append (a b : Script) : (a ++ b).operands = a.operands ++ b.operands := rfl
@[simp] theorem operands_text (s : String) : (text s).operands = [] := rfl
@[simp] theorem operands_lineBreak : lineBreak.operands = [] := rfl

@[simp] theorem operands_token (t : Token) : (token t).operands = t.operand?.toList := rfl

theorem operands_given {α : Type} {r : Except Fault α} {next : α → Script}
    (h : ∀ x, (next x).operands = []) : (given r next).operands = [] := by
  cases r with
  | ok x => exact h x
  | error f => rfl

@[simp] theorem operands_content (v : Value) : (content v).operands = [] := by
  unfold content
  split <;> rfl

@[simp] theorem operands_declaration (name : Value) (target : Option Target) :
    (declaration name target).operands = [] := operands_given fun _ => rfl

theorem operands_reference (name : Value) (tooltip : String) {target : Target}
    (h : target.operand? = none) : (reference name tooltip target).operands = [] :=
  operands_given fun _ => by simp [Token.operand?, h]

theorem operands_described (r : Except Fault String) (name : Value) {target : Target}
    (h : target.operand? = none) :
    (given r fun tooltip => reference name tooltip target).operands = [] :=
  operands_given fun _ => operands_reference _ _ h

theorem operands_commaSeparated (l : List Script) :
    (commaSeparated l).operands = l.flatMap operands := by
  unfold commaSeparated
  induction l with
  | nil => rfl
  | cons s l ih =>
    cases l with
    | nil => simp [joined]
    | cons t l =>
      rw [joined.eq_3 _ _ _ (List.cons_ne_nil t l), operands_append, operands_append, ih]
      simp

theorem operands_blockItems (index : Nat) (l : List Script) :
    (blockItems index l).operands = l.flatMap operands := by
  induction l generalizing index with
  | nil => rfl
  | cons s l ih =>
    rw [blockItems, operands_append, operands_append, ih, List.flatMap_cons]
    split_ifs <;> rfl

/-- What the script refers to if it does not fault. -/
def Uses (s : Script) (us : List Entity) : Prop := s.fault = none → s.operands = us

/-- What scripts refer to, one after the other, if none of them faults. -/
def UsesAll (l : List Script) (us : List Entity) : Prop :=
  (∀ s ∈ l, s.fault = none) → l.flatMap operands = us

theorem Uses.nothing (h : s.operands = []) : Uses s [] := fun _ => h

theorem Uses.failed (f : Fault) : Uses (fail f) us := nofun

theorem Uses.append (ha : Uses a us) (hb : Uses b ws) : Uses (a ++ b) (us ++ ws) := fun hf => by
  obtain ⟨hfa, hfb⟩ := fault_append_eq_none.1 hf
  rw [operands_append, ha hfa, hb hfb]

/-- A script after one that refers to nothing. -/
theorem Uses.after (hb : Uses b us) (ha : a.operands = []) : Uses (a ++ b) us :=
  (Uses.nothing ha).append hb

/-- A script before one that refers to nothing. -/
theorem Uses.before (ha : Uses a us) (hb : b.operands = []) : Uses (a ++ b) us := by
  simpa using ha.append (.nothing hb)

theorem Uses.between (h : Uses s us) (opening closing : String) :
    Uses (Script.between opening closing s) us := (h.after rfl).before rfl

theorem Uses.parenthesized (h : Uses s us) : Uses (Script.parenthesized s) us := h.between _ _

theorem Uses.bracketed (h : Uses s us) : Uses (Script.bracketed s) us := h.between _ _

theorem Uses.indented (h : Uses s us) : Uses (Script.indented s) us := (h.after rfl).before rfl

theorem Uses.unary (operator : Value) (h : Uses s us) : Uses (Script.unary operator s) us := by
  unfold Script.unary
  split
  · exact h.after rfl
  · exact h.before rfl
  · exact .failed _

theorem Uses.binary (operator : Value) (ha : Uses a us) (hb : Uses b ws) :
    Uses (Script.binary operator a b) (us ++ ws) := by
  unfold Script.binary
  split
  · exact ((ha.before rfl).append hb).parenthesized
  · exact .failed _

theorem Uses.optionally {p : Program} {v : Value} (h : Uses s (v.operands p)) :
    Uses (v.optionally s) (v.operands p) := by
  unfold Value.optionally
  split_ifs with hn
  · rw [v.operands_of_isNull p hn]
    exact .nothing rfl
  · exact h

theorem operands_optionally (v : Value) (h : s.operands = []) : (v.optionally s).operands = [] := by
  unfold Value.optionally
  split_ifs
  · rfl
  · exact h

theorem Uses.asTarget {p : Program} {v : Value} (h : Uses s (v.operands p)) :
    Uses (v.asTarget s) (v.operands p) := by
  refine .optionally (.before ?_ rfl)
  split_ifs
  · exact h.parenthesized
  · exact h

theorem Uses.asCallee (v : Value) (h : Uses s us) : Uses (v.asCallee s) us := by
  unfold Value.asCallee
  split
  · exact h
  · exact h.parenthesized

namespace UsesAll

theorem nil : UsesAll [] [] := fun _ => rfl

theorem map {f : Value → Script} {g : Value → List Entity} {vs : List Value}
    (h : ∀ v ∈ vs, Uses (f v) (g v)) : UsesAll (vs.map f) (vs.flatMap g) := fun hf => by
  rw [List.forall_mem_map] at hf
  rw [List.flatMap_map]
  exact List.flatMap_congr fun v hv => h v hv (hf v hv)

/-- Items that cannot be rendered do not fault only if there are none. -/
theorem strays {p : Program} (v : Value) {item : Value → Script} (h : ∀ w, (item w).fault ≠ none) :
    UsesAll (v.strays item) (v.operands p) := fun hf => by
  unfold Value.strays at hf ⊢
  split at hf
  · next items hitems =>
    cases items with
    | nil => exact (v.operands_of_items_nil p hitems).symm
    | cons w items => exact absurd (hf _ (List.mem_cons_self ..)) (h w)
  · cases hf _ (List.mem_singleton_self _)

theorem append_one (h : UsesAll l us) (hs : Uses s ws) : UsesAll (l ++ [s]) (us ++ ws) := fun hf => by
  rw [List.forall_mem_append, List.forall_mem_singleton] at hf
  rw [List.flatMap_append, List.flatMap_singleton, h hf.1, hs hf.2]

theorem map_bracketed (h : UsesAll l us) : UsesAll (l.map bracketed) us := fun hf => by
  rw [List.forall_mem_map] at hf
  rw [List.flatMap_map, ← h fun s hs => by simpa [bracketed, between] using hf s hs]
  exact List.flatMap_congr fun s _ => by simp [bracketed, between]

theorem concat (h : UsesAll l us) : Uses (concat l) us := fun hf => by
  rw [← h (fault_concat.1 hf)]
  clear h hf
  induction l with
  | nil => rfl
  | cons s l ih => rw [Script.concat, List.foldr_cons, operands_append, ← Script.concat, ih]; rfl

theorem commaSeparated (h : UsesAll l us) : Uses (commaSeparated l) us := fun hf => by
  rw [operands_commaSeparated]
  exact h (fault_commaSeparated.1 hf)

theorem block (h : UsesAll l us) : Uses (block l) us := by
  have hitems : Uses (blockItems 0 l) us := fun hf => by
    rw [operands_blockItems]
    exact h (fault_blockItems.1 hf)
  unfold Script.block
  split_ifs
  · exact (((hitems.after rfl).before rfl).before rfl).before rfl
  · exact (hitems.after rfl).before rfl

end UsesAll

end Script

/-! ### Types and names -/

namespace Program

variable (p : Program)

@[simp] theorem operands_typeName (type : Value) : (p.typeName type).operands = [] := by
  unfold typeName
  split
  · exact operands_given fun _ => operands_given fun _ => rfl
  · rfl

mutual

@[simp] theorem operands_typeSlot (v : Value) : (p.typeSlot v).operands = [] := by
  cases v with
  | scalar s => cases s <;> rfl
  | entity e =>
    obtain ⟨kind, i⟩ := e
    cases kind with
    | type => exact p.operands_typeName (.entity ⟨.type, i⟩)
    | genericParameter => exact operands_content _
    | _ => rfl
  | type tree => exact operands_typeTree tree
  | _ => rfl

theorem operands_typeTree : ∀ tree : TypeTree, (p.typeTree tree).operands = []
  | .bare => rfl
  | .array element _ => by
    rw [typeTree, operands_append, operands_typeSlot element, operands_given fun _ => rfl]
    rfl
  | .pointer element | .reference element => by simp [typeTree, operands_typeSlot element]
  | .required element modifier | .optional element modifier => by
    simp [typeTree, operands_typeSlot element]
  | .functionPointer result parameters => by
    have hresult : (if result.isNull then text "void" else p.typeSlot result).operands = [] := by
      split_ifs
      · rfl
      · exact operands_typeSlot result
    have hparameters := List.flatMap_eq_nil_iff.2 (operands_typeItems parameters)
    simp [typeTree, hresult, operands_commaSeparated, hparameters]
  | .genericArgument _ target => by
    rw [typeTree]
    split_ifs
    · rfl
    · exact operands_typeSlot target

theorem operands_typeItems (v : Value) : ∀ s ∈ p.typeItems v, s.operands = [] := by
  cases v with
  | list items => exact operands_typeSlots items
  | _ => rw [typeItems]; exacts [Value.mem_strays _ (fun _ => rfl) fun _ => rfl, by simp]

theorem operands_typeSlots : ∀ vs : List Value, ∀ s ∈ p.typeSlots vs, s.operands = []
  | [] => by simp [typeSlots]
  | first :: rest => by
    rw [typeSlots, List.forall_mem_cons]
    exact ⟨operands_typeSlot first, operands_typeSlots rest⟩

end

@[simp] theorem operands_memberOf (member : Value) : (p.memberOf member).operands = [] :=
  operands_given fun _ => by split_ifs <;> simp

@[simp] theorem operands_fieldName (field : Value) : (p.fieldName field).operands = [] := by
  unfold fieldName
  split
  · exact operands_described _ _ rfl
  · rfl

@[simp] theorem operands_methodName (method : Value) : (p.methodName method).operands = [] := by
  unfold methodName
  split
  · split
    · exact operands_described _ _ rfl
    · exact operands_described _ _ rfl
    · rfl
  · rfl

@[simp] theorem operands_memberName (member : Value) : (p.memberName member).operands = [] := by
  unfold memberName
  split
  · exact operands_described _ _ rfl
  · simp

@[simp] theorem operands_eventName (event : Value) : (p.eventName event).operands = [] := by
  unfold eventName
  split
  · exact operands_described _ _ rfl
  · rfl

@[simp] theorem operands_accessorName (accessor : Value) : (p.accessorName accessor).operands = [] := by
  unfold accessorName
  split
  · exact operands_described _ _ rfl
  · rfl

@[simp] theorem operands_createdType (constructor type : Value) :
    (p.createdType constructor type).operands = [] := by
  unfold createdType constructedType
  split
  · split_ifs
    · simp
    · split
      · exact operands_given fun _ => operands_given fun _ => operands_given fun _ => rfl
      · rfl
  · simp

@[simp] theorem operands_variableDeclaration (bound : Value) :
    (p.variableDeclaration bound).operands = [] := by
  unfold variableDeclaration
  split
  · simp
  · rfl

/-- What a slot with a name in it is bound to is an operand just if the slot holds one. -/
theorem operand?_of_named? {bound : Value} {named : Named} (h : p.named? bound = some named) :
    named.target.operand? = bound.operand? := by
  unfold named? at h
  split at h <;> cases h <;> rfl

theorem reference_uses {r : Except Fault String} {name bound : Value} {target : Target}
    (h : target.operand? = bound.operand?) :
    Uses (given r fun tooltip => reference name tooltip target) bound.operand?.toList := fun hf => by
  obtain ⟨n, t, hs⟩ := described_eq hf
  rw [hs, operands_token, Token.operand?, Option.bind_some, h]

theorem argumentUse_uses (parameter : Value) :
    Uses (p.argumentUse parameter) parameter.operand?.toList := by
  unfold argumentUse
  split
  · next hn => exact reference_uses (p.operand?_of_named? hn)
  · exact .failed _

theorem variableUse_uses (bound : Value) : Uses (p.variableUse bound) bound.operand?.toList := by
  unfold variableUse
  split
  · next hn => exact reference_uses (p.operand?_of_named? hn)
  · exact .failed _

theorem accessorCall_uses (property : PropertyId) (accessor : Value) {target : Script}
    {arguments : List Script} {us ws : List Entity} (ht : Uses target us)
    (ha : UsesAll arguments ws) :
    Uses (p.accessorCall property accessor target arguments) (us ++ ws) := by
  unfold accessorCall
  split_ifs
  · exact .failed _
  · exact (((ht.before (by simp)).before rfl).append ha.commaSeparated).before rfl

end Program

/-! ### Expressions and queries -/

namespace Value

def isFunction : Value → Bool
  | .expr (.function ..) => true
  | _ => false

/-- No function with a body of statements stands in the tree. -/
def Functionless (v : Value) : Prop := ∀ u, Inside u v → u.isFunction = false

theorem Functionless.slot {u v : Value} (h : v.Functionless) (hu : u ∈ v.slots) : u.Functionless :=
  fun w hw => h w (hw.slot hu)

theorem Functionless.of_slots {v : Value} (hv : v.isFunction = false)
    (hs : ∀ u ∈ v.slots, u.Functionless) : v.Functionless :=
  forall_inside_iff.2 ⟨hv, hs⟩

end Value

namespace Context

variable (c : Context)

/-- What an access to a property refers to: the target first, and then the arguments. -/
def Access.Uses (access : Access) (us : List Entity) : Prop :=
  ∃ ts ws, Script.Uses access.target ts ∧ UsesAll access.arguments ws ∧ ts ++ ws = us

variable {c}

theorem read_uses {access : Access} {us : List Entity} (h : access.Uses us) :
    Uses (c.read access) us := by
  obtain ⟨ts, ws, ht, ha, rfl⟩ := h
  unfold read
  split
  · exact c.program.accessorCall_uses _ _ ht ha
  · exact .failed _

/-- A property is assigned to after its indices. -/
theorem write_uses {access : Access} {value : Script} {us vs : List Entity} (h : access.Uses us)
    (hv : Uses value vs) : Uses (c.write access value) (us ++ vs) := by
  obtain ⟨ts, ws, ht, ha, rfl⟩ := h
  unfold write
  split
  · rw [List.append_assoc]
    exact c.program.accessorCall_uses _ _ ht (ha.append_one hv)
  · exact .failed _

theorem assignment_uses {access : Option Access} {target value : Script} {us vs : List Entity}
    (ha : ∀ a ∈ access, a.Uses us) (ht : Uses target us) (hv : Uses value vs) :
    Uses (c.assignment access target value) (us ++ vs) := by
  unfold assignment
  split
  · exact write_uses (ha _ rfl) hv
  · exact (ht.before rfl).append hv

/-- An assignment is written as a counter just if the value counts the target. -/
theorem counter?_isSome (target : Value) (whole : Script) (value : Value) :
    (c.counter? target whole value).isSome = c.program.counts target value := by
  unfold counter?
  split
  · rw [Option.isSome_map, Bool.eq_iff_iff, counterCall?_isSome, Program.counts]
    simp
  · next hvalue =>
    rw [Program.counts]
    · rfl
    · exact hvalue

theorem newArray_uses {initializer dimensions : Value} {items : Option (List Script)}
    {sizes : List Script} (hi : ∀ l ∈ items, UsesAll l (initializer.operands c.program))
    (hn : initializer.isNull = true → items = none)
    (hd : UsesAll sizes (dimensions.operands c.program)) :
    Uses (newArray initializer dimensions.areZero items sizes)
      (if initializer.isNull then dimensions.operands c.program
        else initializer.operands c.program) := by
  unfold newArray
  split
  · next items =>
    rw [if_neg fun h => nomatch hn h]
    exact (hi items rfl).block
  · cases hinitializer : initializer.isNull with
    | true =>
      rw [if_neg (by simp), if_pos rfl]
      split_ifs with hzero
      · rw [dimensions.operands_of_areZero _ hzero]
        exact .nothing rfl
      · exact hd.commaSeparated.between _ _
    | false => exact .failed _

theorem newMembers_uses {initializer : Value} {items : Option (List Script)}
    (hi : ∀ l ∈ items, UsesAll l (initializer.operands c.program))
    (hl : ∀ v ∈ initializer.listed?, v.operands c.program = initializer.operands c.program) :
    Uses (newMembers initializer items) (initializer.operands c.program) := by
  unfold newMembers
  split
  · next listed items hlisted =>
    split_ifs with hset
    · exact (hi items rfl).block.after rfl
    · rw [← hl listed hlisted, listed.operands_of_not_isSet _ (by simpa using hset)]
      exact .nothing rfl
  · split_ifs with hn
    · rw [initializer.operands_of_isNull _ hn]
      exact .nothing rfl
    · exact .failed _

/-- The parameters of a lambda are declared, not used. -/
theorem lambdaParameters_operands (parameters : Value) :
    (given parameters.items fun l =>
      commaSeparated (l.map c.program.variableDeclaration)).operands = [] :=
  operands_given fun l => by simp [operands_commaSeparated, List.flatMap_map]

variable (c)

/-- The operands of a slot are those that its scripts refer to, in whatever role. -/
structure CodeUses (v : Value) : Prop where
  exprSlot : Uses (c.exprSlot v) (v.operands c.program)
  exprItems : UsesAll (c.exprItems v) (v.operands c.program)
  property? : ∀ a ∈ c.property? v, Uses a.target (v.operands c.program)
  access? : ∀ a ∈ c.access? v, a.Uses (v.operands c.program)
  items? : ∀ l ∈ c.items? v, UsesAll l (v.operands c.program)
  pointee? : ∀ s ∈ c.pointee? v, Uses s (v.operands c.program)
  counter? (target : Value) {whole : Script} {us : List Entity} : Uses whole us →
    ∀ s ∈ c.counter? target whole v, Uses s (us ++ v.amountOperands c.program)
  querySource : Uses (c.querySource v) (v.operands c.program)
  queryClause : Uses (c.queryClause v) (v.operands c.program)
  queryClauseItems : UsesAll (c.queryClauseItems v) (v.operands c.program)
  ordering : Uses (c.ordering v) (v.operands c.program)
  orderingItems : UsesAll (c.orderingItems v) (v.operands c.program)
  queryOperation : Uses (c.queryOperation v) (v.operands c.program)
  queryBody : Uses (c.queryBody v) (v.operands c.program)
  queryContinuation : Uses (c.queryContinuation v) (v.continuedOperands c.program)

namespace CodeUses

variable {c} {v : Value}

theorem expr {e : Expr} (hfree : (Value.expr e).Functionless) (h : e.slots.Forall c.CodeUses) :
    Uses (c.expr e) (e.operands c.program) := by
  cases e with
  | bare => exact .failed _
  | argumentList | base | this => exact .nothing rfl
  | literal => exact .nothing (operands_given fun _ => rfl)
  | typeOf | typeName | sizeOf | genericDefault | snippet =>
    exact .nothing (by simp [Context.expr, between])
  | fieldOf member type | methodOf member type =>
    have htype : (type.optionally (text ", " ++ c.program.typeSlot type)).operands = [] :=
      operands_optionally type (by simp)
    exact .nothing (by simp [Context.expr, between, htype])
  | function parameters body type => exact nomatch hfree _ (.refl _)
  | argument bound => exact c.program.argumentUse_uses bound
  | declare bound | «variable» bound => exact c.program.variableUse_uses bound
  | assign target value =>
    obtain ⟨ht, hv⟩ := h
    rw [Context.expr, Expr.operands, ← c.counter?_isSome target (c.exprSlot target)]
    cases hcounter : c.counter? target (c.exprSlot target) value with
    | some s => exact hv.counter? target ht.exprSlot s hcounter
    | none => exact assignment_uses ht.access? ht.exprSlot hv.exprSlot
  | initMember member value => exact h.2.exprSlot.after (by simp)
  | field member target | event member target | method member target =>
    exact h.2.exprSlot.asTarget.before (by simp)
  | property property target =>
    exact read_uses ⟨_, [], h.2.exprSlot.asTarget, .nil, List.append_nil _⟩
  | stackAllocate type size => exact h.2.exprSlot.bracketed.after (by simp)
  | block items => exact h.exprItems.block
  | arrayCreate type dimensions initializer =>
    refine newArray_uses h.2.2.items? (fun hn => ?_) h.2.1.exprItems
    unfold Value.isNull at hn
    split at hn
    · rfl
    · cases hn
  | unary operator operand => exact h.2.exprSlot.unary operator
  | binary left operator right => exact h.1.exprSlot.binary operator h.2.2.exprSlot
  | tryCast operand type | canCast operand type =>
    exact ((h.1.exprSlot.before rfl).before (by simp)).parenthesized
  | cast operand type => exact h.1.exprSlot
  | valueOfTyped operand type =>
    exact (h.1.exprSlot.before (operands_optionally type (by simp))).between _ _
  | condition test yes no =>
    exact ((((h.1.exprSlot.before rfl).append h.2.1.exprSlot).before rfl).append
      h.2.2.exprSlot).parenthesized
  | coalesce subject fallback =>
    have hs : Uses (c.exprSlot subject) (subject.operands c.program) := h.1.exprSlot
    exact (((((hs.after rfl).before rfl).append hs).before rfl).append h.2.exprSlot).before rfl
  | delegateCreate type member target =>
    have ht : Uses (target.optionally (c.exprSlot target ++ text ", ")) (target.operands c.program) :=
      .optionally (h.2.2.exprSlot.before rfl)
    exact ((ht.before (by simp)).between _ _).after (by simp)
  | lambda parameters body =>
    exact (h.2.exprSlot.after (by simp [lambdaParameters_operands])).before rfl
  | propertyIndexer target indices =>
    rw [Context.expr]
    cases haccess : c.property? target with
    | some access => exact read_uses ⟨_, _, h.1.property? access haccess, h.2.exprItems, rfl⟩
    | none => exact .failed _
  | arrayIndexer target indices => exact h.1.exprSlot.append h.2.exprItems.map_bracketed.concat
  | invoke target arguments =>
    exact (h.1.exprSlot.asCallee target).append h.2.exprItems.commaSeparated.parenthesized
  | delegateInvoke target arguments =>
    exact h.1.exprSlot.append h.2.exprItems.commaSeparated.parenthesized
  | objectCreate type constructor arguments initializer =>
    refine .append (.after (h.2.2.1.exprItems.commaSeparated.between _ _) (by simp)) ?_
    refine newMembers_uses h.2.2.2.items? fun v hv => ?_
    unfold Value.listed? at hv
    split at hv <;> cases hv <;> rfl
  | addressOf operand | addressReference operand | addressOut operand =>
    exact Uses.bracketed h.exprSlot
  | typeOfTyped operand | createTyped operand => exact Uses.between h.exprSlot _ _
  | dereference operand =>
    rw [Context.expr]
    cases hpointee : c.pointee? operand with
    | some s => exact h.pointee? s hpointee
    | none => exact h.exprSlot
  | query source body => exact (h.1.querySource.append h.2.queryBody.indented).parenthesized

section

variable (h : v.slots.Forall c.CodeUses)

include h

theorem exprItems_of_slots : UsesAll (c.exprItems v) (v.operands c.program) := by
  unfold Context.exprItems
  split
  · rw [exprSlots_eq, Value.operands, Value.operandsOfAll_eq]
    exact .map fun v hv => (List.forall_iff_forall_mem.1 h v hv).exprSlot
  · exact .strays _ fun _ => by simp

theorem queryClauseItems_of_slots : UsesAll (c.queryClauseItems v) (v.operands c.program) := by
  unfold Context.queryClauseItems
  split
  · rw [queryClauses_eq, Value.operands, Value.operandsOfAll_eq]
    exact .map fun v hv => (List.forall_iff_forall_mem.1 h v hv).queryClause.after rfl
  · exact .strays _ fun _ => by simp

theorem orderingItems_of_slots : UsesAll (c.orderingItems v) (v.operands c.program) := by
  unfold Context.orderingItems
  split
  · rw [orderings_eq, Value.operands, Value.operandsOfAll_eq]
    exact .map fun v hv => (List.forall_iff_forall_mem.1 h v hv).ordering
  · exact .strays _ fun _ => by simp

theorem property?_of_slots : ∀ a ∈ c.property? v, Uses a.target (v.operands c.program) := by
  unfold Context.property?
  split
  · rintro a ⟨⟩
    exact h.2.exprSlot.asTarget
  · rintro _ ⟨⟩

theorem access?_of_slots : ∀ a ∈ c.access? v, a.Uses (v.operands c.program) := by
  unfold Context.access?
  split
  · rintro a ⟨⟩
    exact ⟨_, [], h.2.exprSlot.asTarget, .nil, List.append_nil _⟩
  · intro a ha
    obtain ⟨access, haccess, rfl⟩ := Option.map_eq_some_iff.1 ha
    exact ⟨_, _, h.1.property? access haccess, h.2.exprItems, rfl⟩
  · rintro _ ⟨⟩

theorem items?_of_slots : ∀ l ∈ c.items? v, UsesAll l (v.operands c.program) := by
  unfold Context.items?
  split
  · rintro l ⟨⟩
    exact h.exprItems
  · rintro l ⟨⟩
    exact h.exprItems
  · rintro _ ⟨⟩

theorem pointee?_of_slots : ∀ s ∈ c.pointee? v, Uses s (v.operands c.program) := by
  unfold Context.pointee?
  split
  · rintro s ⟨⟩
    exact h.exprSlot
  · rintro _ ⟨⟩

/-- A counter leaves out the left operand of its value. -/
theorem counter?_of_slots (target : Value) {whole : Script} {us : List Entity} (hw : Uses whole us) :
    ∀ s ∈ c.counter? target whole v, Uses s (us ++ v.amountOperands c.program) := by
  unfold Context.counter?
  split
  · intro s hs
    obtain ⟨call, -, rfl⟩ := Option.map_eq_some_iff.1 hs
    exact (((hw.after rfl).before rfl).append h.2.2.exprSlot).before rfl
  · rintro _ ⟨⟩

theorem querySource_of_slots : Uses (c.querySource v) (v.operands c.program) := by
  unfold Context.querySource
  split
  · exact h.2.exprSlot.after (by simp)
  · exact h.2.exprSlot.after (by simp)
  · exact h.2.1.exprSlot.after (by simp)
  · exact h.2.1.exprSlot.after (by simp)
  · exact fun hf => by simp at hf

theorem queryClause_of_slots : Uses (c.queryClause v) (v.operands c.program) := by
  unfold Context.queryClause
  split
  · exact h.2.exprSlot.after (by simp)
  · exact Uses.after h.exprSlot rfl
  · exact h.2.exprSlot.after (by simp)
  · next into =>
    obtain ⟨-, hsource, hon, hequals, -⟩ := h
    have hinto : (into.optionally (text " into " ++ c.program.variableDeclaration into)).operands = [] :=
      operands_optionally into (by simp)
    exact ((((hsource.exprSlot.after (by simp)).before rfl).append hon.exprSlot).before rfl).append
      hequals.exprSlot |>.before hinto
  · exact h.orderingItems.commaSeparated.after rfl
  · exact .failed _

theorem queryContinuation_of_slots :
    Uses (c.queryContinuation v) (v.continuedOperands c.program) := by
  unfold Context.queryContinuation
  split
  · exact .nothing rfl
  · exact h.2.queryBody.after (by simp)
  · exact h.1.queryBody.after (by simp)
  · exact h.2.2.queryBody.after (by simp)
  · exact h.2.2.queryBody.after (by simp)
  · exact fun hf => by simp at hf

theorem ordering_of_slots : Uses (c.ordering v) (v.operands c.program) := by
  unfold Context.ordering
  split
  · exact h.1.exprSlot.before (by split_ifs <;> rfl)
  · exact .failed _

theorem queryOperation_of_slots : Uses (c.queryOperation v) (v.operands c.program) := by
  unfold Context.queryOperation
  split
  · exact Uses.after h.exprSlot rfl
  · exact ((h.1.exprSlot.after rfl).before rfl).append h.2.exprSlot
  · exact .failed _

/-- The operation of a query is written after its clauses. -/
theorem queryBody_of_slots : Uses (c.queryBody v) (v.operands c.program) := by
  unfold Context.queryBody
  split
  · exact ((h.2.1.queryClauseItems.concat.before rfl).append h.1.queryOperation).append
      h.2.2.queryContinuation
  · exact .failed _

theorem of_slots (hfree : v.Functionless) : c.CodeUses v where
  exprSlot := by
    unfold Context.exprSlot
    split
    · exact .failed _
    · exact expr hfree h
    · exact .failed _
  exprItems := exprItems_of_slots h
  property? := property?_of_slots h
  access? := access?_of_slots h
  items? := items?_of_slots h
  pointee? := pointee?_of_slots h
  counter? target _ _ hw := counter?_of_slots h target hw
  querySource := querySource_of_slots h
  queryClause := queryClause_of_slots h
  queryClauseItems := queryClauseItems_of_slots h
  ordering := ordering_of_slots h
  orderingItems := orderingItems_of_slots h
  queryOperation := queryOperation_of_slots h
  queryBody := queryBody_of_slots h
  queryContinuation := queryContinuation_of_slots h

end

end CodeUses

/-- Whatever stands in a slot, its scripts refer to its operands. -/
theorem code_uses {v : Value} (hfree : v.Functionless) : c.CodeUses v := by
  induction v using Value.slot_induction with
  | slots v ih =>
    exact .of_slots (List.forall_iff_forall_mem.2 fun u hu => ih u hu (hfree.slot hu)) hfree

/-- The variables and arguments that the tokens of an expression refer to are its operands, each where
it stands in the written form: none is lost, moved, or written more often than `Expr.operands` says.
The expression has no function with a body of statements in it and renders without a fault. -/
theorem operands_in_order {e : Expr} (hfree : (Value.expr e).Functionless)
    (hf : (c.expr e).fault = none) (l : Layout) :
    ((c.expr e).run l).tokens.filterMap Token.operand? = e.operands c.program := by
  rw [run_tokens, filterMap_operand hf]
  exact (c.code_uses hfree).exprSlot hf

/-- `x = x + (y ?? new[n] { a })`: it is written as a counter of `x`, with `y` twice and without `n`. -/
theorem operands_in_order_counter :
    let x := Value.entity ⟨.variable, 0⟩
    let y := Value.entity ⟨.variable, 1⟩
    let n := Value.entity ⟨.parameter, 0⟩
    let a := Value.entity ⟨.parameter, 1⟩
    let c : Context := {
      program := {
        locals := #[{ name := .ofText "x" }, { name := .ofText "y" }],
        parameters := #[{ name := .ofText "n" }, { name := .ofText "a" }] } }
    let array := Expr.arrayCreate .null (.list [.expr (.argument n)])
      (.expr (.block (.list [.expr (.argument a)])))
    let e := Expr.assign (.expr (.variable x)) (.expr (.binary (.expr (.variable x)) (.ofText "add")
      (.expr (.coalesce (.expr (.variable y)) (.expr array)))))
    (Value.expr e).Functionless ∧ (c.expr e).fault = none ∧
      (c.expr e).outcome.tokens.filterMap Token.operand? =
        [⟨.variable, 0⟩, ⟨.variable, 1⟩, ⟨.variable, 1⟩, ⟨.parameter, 1⟩] := by
  intro x y n a c array e
  have hfree : (Value.expr e).Functionless := by
    repeat' first
      | exact List.forall_mem_nil _
      | refine List.forall_mem_cons.2 ⟨?_, ?_⟩
      | refine .of_slots ?_ ?_
      | rfl
  have hf : (c.expr e).fault = none := by rfl
  exact ⟨hfree, hf, (c.operands_in_order hfree hf {}).trans rfl⟩

end Context

end Scribe
