import Scribe.Proofs.Neutral

/-!
# Assignments to properties

Assigning to a property calls its setter, unless the value adds to the property or subtracts from
it: then the assignment is written as a counter of what the getter returns, and the setter is not
called. `Context.assign_callsSetter_iff` says just when.
-/

namespace Scribe

open Script

namespace Value

/-- The property that an assignment to a slot is to, with indices or without. -/
def assignedProperty? : Value → Option PropertyId
  | .expr (.property (.entity ⟨.property, i⟩) _) => some ⟨i⟩
  | .expr (.propertyIndexer (.expr (.property (.entity ⟨.property, i⟩) _)) _) => some ⟨i⟩
  | _ => none

end Value

/-- What a reference leads to. -/
def Token.leadsTo? : Token → Option Target
  | .reference _ _ target => target
  | _ => none

namespace Script

variable {a b s : Script} {t : Target}

/-- Whether a script writes a reference that leads to the target. -/
def RefersTo (s : Script) (t : Target) : Prop := t ∈ s.written.filterMap Token.leadsTo?

theorem refersTo_append (ha : Neutral a) (hb : Neutral b) (hf : a.fault = none) :
    (a ++ b).RefersTo t ↔ a.RefersTo t ∨ b.RefersTo t := by
  rw [RefersTo, ha.written_append hb hf, List.filterMap_append, List.mem_append, RefersTo, RefersTo]

theorem not_refersTo_text (s : String) : ¬ (text s).RefersTo t := by
  simp [RefersTo, written, outcome_tokens, Token.leadsTo?]

end Script

/-- The name of an accessor leads to it. -/
theorem Program.accessorName_refersTo (p : Program) {accessor : Value}
    (hf : (p.accessorName accessor).fault = none) :
    ∃ i, accessor = .entity ⟨.method, i⟩ ∧
      (p.accessorName accessor).RefersTo (.entity ⟨.method, i⟩) := by
  unfold accessorName at hf ⊢
  split at hf
  · next i =>
    refine ⟨i, rfl, ?_⟩
    rw [methodReference] at hf ⊢
    obtain ⟨name, tooltip, he⟩ := described_eq hf
    rw [he]
    exact List.mem_singleton.2 rfl
  · cases hf

namespace Context

variable (c : Context)

/-- Whether a script faults or calls the setter of the property. -/
def CallsSetter (id : PropertyId) (s : Script) : Prop :=
  s.fault ≠ none ∨
    ∃ i, (c.program.property id).setter = .entity ⟨.method, i⟩ ∧ s.RefersTo (.entity ⟨.method, i⟩)

/-- Whether a value is the target with `amount` added to it or subtracted from it. -/
def CountsBy (target value amount : Value) : Prop :=
  ∃ left operator, value = .expr (.binary left operator amount) ∧
    (operator.isText "add" = true ∨ operator.isText "subtract" = true) ∧
    c.program.same left target = true

theorem counterCall?_isSome {target left operator : Value} :
    (c.counterCall? target left operator).isSome = true ↔
      (operator.isText "add" = true ∨ operator.isText "subtract" = true) ∧
        c.program.same left target = true := by
  unfold counterCall?
  cases operator.isText "add" <;> cases operator.isText "subtract" <;>
    cases c.program.same left target <;> simp

theorem counter?_eq_none {target value : Value} {whole : Script}
    (h : ∀ amount, ¬ c.CountsBy target value amount) : c.counter? target whole value = none := by
  cases value with
  | expr e =>
    cases e with
    | binary left operator right =>
      rw [counter?, Option.map_eq_none_iff, ← Option.not_isSome_iff_eq_none]
      intro hs
      obtain ⟨ho, hl⟩ := c.counterCall?_isSome.1 hs
      exact h right ⟨left, operator, rfl, ho, hl⟩
    | _ => rfl
  | _ => rfl

theorem counter?_eq_some {target value amount : Value} (whole : Script)
    (h : c.CountsBy target value amount) :
    ∃ call, c.counter? target whole value =
      some (text call ++ whole ++ text ", " ++ c.exprSlot amount ++ text ")") := by
  obtain ⟨left, operator, rfl, ho, hl⟩ := h
  obtain ⟨call, hc⟩ := Option.isSome_iff_exists.1 (c.counterCall?_isSome.2 ⟨ho, hl⟩)
  refine ⟨call, ?_⟩
  rw [counter?, hc]
  rfl

/-- What an assignment to a property is to. -/
theorem access?_of_assignedProperty? {target : Value} {id : PropertyId}
    (h : target.assignedProperty? = some id) :
    ∃ access ∈ c.access? target, access.property = .entity ⟨.property, id.index⟩ := by
  unfold Value.assignedProperty? at h
  split at h
  · cases h
    exact ⟨_, rfl, rfl⟩
  · cases h
    exact ⟨_, rfl, rfl⟩
  · cases h

/-- A call of the setter refers to it. -/
theorem write_callsSetter {id : PropertyId} {access : Access} {value : Script}
    (ha : access.Inline) (hp : access.property = .entity ⟨.property, id.index⟩) (hv : Inline value) :
    c.CallsSetter id (c.write access value) := by
  obtain ⟨index⟩ := id
  unfold CallsSetter
  rw [or_iff_not_imp_left, not_not]
  intro hf
  rw [write, hp] at hf ⊢
  simp only [Program.accessorCall] at hf ⊢
  split_ifs at hf ⊢ with hn
  · cases hf
  simp only [fault_append_eq_none] at hf
  obtain ⟨⟨⟨⟨hft, hfa⟩, -⟩, hfv⟩, -⟩ := hf
  have hargs : Inline (commaSeparated (access.arguments ++ [value])) := by
    refine .commaSeparated ?_
    rw [List.forall_mem_append, List.forall_mem_singleton]
    exact ⟨ha.arguments, hv⟩
  obtain ⟨i, hi, hr⟩ := c.program.accessorName_refersTo hfa
  refine ⟨i, hi, ?_⟩
  have hacc := (c.program.accessorName_inline (c.program.property ⟨index⟩).setter).law
  have htext (s : String) : Neutral (text s) := .text s
  rw [refersTo_append (((ha.target.law.append hacc).append (htext _)).append hargs.law) (htext _)
      (by simp [hft, hfa, hfv]),
    refersTo_append ((ha.target.law.append hacc).append (htext _)) hargs.law (by simp [hft, hfa]),
    refersTo_append (ha.target.law.append hacc) (htext _) (by simp [hft, hfa]),
    refersTo_append ha.target.law hacc hft]
  exact .inl (.inl (.inl (.inr hr)))

theorem write_without_setter {id : PropertyId} {access : Access} (value : Script)
    (hp : access.property = .entity ⟨.property, id.index⟩)
    (hs : (c.program.property id).setter.isNull = true) :
    (c.write access value).fault = some (c.program.noAccessor id) := by
  rw [write, hp]
  simp only [Program.accessorCall, hs, if_true]
  rfl

/-- A counter calls the setter of a property only where its parts do. -/
theorem counter_callsSetter (id : PropertyId) (call : String) {target amount : Script}
    (ht : Neutral target) (ha : Neutral amount) :
    c.CallsSetter id (text call ++ target ++ text ", " ++ amount ++ text ")") ↔
      c.CallsSetter id (target ++ amount) := by
  have hf : (text call ++ target ++ text ", " ++ amount ++ text ")").fault =
      (target ++ amount).fault := by simp
  unfold CallsSetter
  rw [hf]
  refine or_congr_right' fun hn => exists_congr fun i => and_congr_right fun _ => ?_
  obtain ⟨hft, hfa⟩ := fault_append_eq_none.1 (not_not.1 hn)
  have htext (s : String) : Neutral (text s) := .text s
  rw [refersTo_append ((((htext call).append ht).append (htext _)).append ha) (htext _)
      (by simp [hft, hfa]),
    refersTo_append (((htext call).append ht).append (htext _)) ha (by simp [hft]),
    refersTo_append ((htext call).append ht) (htext _) (by simp [hft]),
    refersTo_append (htext call) ht rfl, refersTo_append ht ha hft]
  simp only [not_refersTo_text, false_or, or_false]

/-- An assignment to a property faults or calls its setter, exactly if the value does not count the
property up or down, or what the counter is made of faults or calls the setter by itself. Where the
value does not count, a missing setter is the fault. -/
theorem assign_callsSetter_iff {target : Value} {id : PropertyId}
    (h : target.assignedProperty? = some id) (value : Value) :
    (c.CallsSetter id (c.expr (.assign target value)) ↔
      ∀ amount, c.CountsBy target value amount →
        c.CallsSetter id (c.exprSlot target ++ c.exprSlot amount)) ∧
    ((c.program.property id).setter.isNull = true → (∀ amount, ¬ c.CountsBy target value amount) →
      (c.expr (.assign target value)).fault = some (c.program.noAccessor id)) := by
  obtain ⟨access, ha, hp⟩ := c.access?_of_assignedProperty? h
  rw [expr]
  by_cases hc : ∃ amount, c.CountsBy target value amount
  · obtain ⟨amount, hc⟩ := hc
    obtain ⟨call, hcall⟩ := c.counter?_eq_some (c.exprSlot target) hc
    rw [hcall, Option.getD_some]
    refine ⟨?_, fun _ hn => absurd hc (hn amount)⟩
    have hall : c.CallsSetter id (text call ++ c.exprSlot target ++ text ", " ++ c.exprSlot amount ++
        text ")") ↔ c.CallsSetter id (c.exprSlot target ++ c.exprSlot amount) :=
      c.counter_callsSetter id call (c.exprSlot_neutral target) (c.exprSlot_neutral amount)
    rw [hall]
    refine ⟨fun hs amount' hc' => ?_, fun hs => hs amount hc⟩
    obtain ⟨left, operator, rfl, -, -⟩ := hc
    obtain ⟨left', operator', he, -, -⟩ := hc'
    cases he
    exact hs
  · push Not at hc
    have hw : c.assignment (c.access? target) (c.exprSlot target) (c.exprSlot value) =
        c.write access (c.exprSlot value) := by
      rw [Option.mem_def.1 ha, assignment]
    rw [c.counter?_eq_none hc, Option.getD_none, hw]
    refine ⟨iff_of_true ?_ fun amount hamount => absurd hamount (hc amount), fun hs _ => ?_⟩
    · exact c.write_callsSetter (c.access?_fits target access ha) hp (c.exprSlot_fits value)
    · exact c.write_without_setter _ hp hs

/-- A literal counts nothing, and so the setter is called. -/
theorem assign_callsSetter_literal :
    let method (name : String) : MethodSymbol :=
      { name := .ofText name, parameters := .list [], arguments := .list [] }
    let property : PropertySymbol :=
      { name := .ofText "Size", getter := .entity ⟨.method, 0⟩, setter := .entity ⟨.method, 1⟩ }
    let c : Context :=
      { program := { methods := #[method "get_Size", method "set_Size"], properties := #[property] } }
    let target := .expr (.property (.entity ⟨.property, 0⟩) (.expr .this))
    let value := .expr (.literal (.scalar (.int 1)) .null)
    target.assignedProperty? = some ⟨0⟩ ∧ c.CallsSetter ⟨0⟩ (c.expr (.assign target value)) := by
  intro method property c target value
  refine ⟨rfl, (c.assign_callsSetter_iff rfl value).1.2 ?_⟩
  rintro amount ⟨left, operator, he, -, -⟩
  change Value.expr (.literal _ _) = _ at he
  cases he

/-- A sum counts the property, and the setter is not called. -/
theorem assign_counter_skips_setter :
    let method (name : String) : MethodSymbol :=
      { name := .ofText name, parameters := .list [], arguments := .list [] }
    let property : PropertySymbol :=
      { name := .ofText "Size", getter := .entity ⟨.method, 0⟩, setter := .entity ⟨.method, 1⟩ }
    let c : Context :=
      { program := { methods := #[method "get_Size", method "set_Size"], properties := #[property] } }
    let target := .expr (.property (.entity ⟨.property, 0⟩) (.expr .this))
    let value := .expr (.binary target (.ofText "add") (.expr (.literal (.scalar (.int 1)) .null)))
    target.assignedProperty? = some ⟨0⟩ ∧ ¬ c.CallsSetter ⟨0⟩ (c.expr (.assign target value)) := by
  intro method property c target value
  refine ⟨rfl, ?_⟩
  rintro (hf | ⟨i, hi, hr⟩)
  · exact hf rfl
  · cases hi
    have hw : (c.expr (.assign target value)).written.filterMap Token.leadsTo? =
        [.entity ⟨.method, 0⟩] := by rfl
    rw [RefersTo, hw] at hr
    simp at hr

end Context

end Scribe
